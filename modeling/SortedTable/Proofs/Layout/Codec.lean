import SortedTable.Proofs.Layout.IndexEntry
import SortedTable.Proofs.Writer.Script

namespace SortedTable

namespace Partition

/-- All bytes of a partition: the header, the static row unless it is empty, the elements and the
end mark. -/
def encode (partition : Partition) : Except TableError Bytes := do
  let header ← headerFields partition.key partition.deletion partition.writtenStaticRow.isSome
  let staticRow ← partition.writtenStaticRow.elim (.ok []) Row.staticFields
  let elements ← liftIo (partition.elements.mapM EncodedElement.ofElement)
  pure (header.flatten ++ (staticRow.flatten ++
    ((elements.flatMap EncodedElement.fields).flatten ++ endMark)))

variable {partition : Partition} {bytes : Bytes}

/-- The bytes of a partition are those of its encoding. -/
theorem encode_eq_ok_iff :
    partition.encode = .ok bytes ↔ ∃ encoding : partition.Encoding, encoding.bytes = bytes := by
  constructor
  · intro written
    obtain ⟨header, headed, written⟩ := Except.bind_eq_ok_iff.1 written
    obtain ⟨staticRow, rowed, written⟩ := Except.bind_eq_ok_iff.1 written
    obtain ⟨elements, each, written⟩ := Except.bind_eq_ok_iff.1 written
    rw [liftIo_eq_ok_iff, Except.mapM_eq_ok_iff] at each
    exact ⟨⟨header, staticRow, elements, headed, rowed, each⟩, Except.pure_eq_ok_iff.1 written⟩
  · rintro ⟨encoding, rfl⟩
    have each : (liftIo (partition.elements.mapM EncodedElement.ofElement) :
        Except TableError _) = .ok encoding.elements :=
      liftIo_eq_ok_iff.2 (Except.mapM_eq_ok_iff.2 encoding.elements_eq)
    exact Except.bind_eq_ok_iff.2 ⟨_, encoding.header_eq, Except.bind_eq_ok_iff.2
      ⟨_, encoding.staticRow_eq, Except.bind_eq_ok_iff.2 ⟨_, each, rfl⟩⟩⟩

/-- A script without a fault puts the bytes of its partition into the data. -/
theorem encode_of_script {blockSize : UInt64} {position : Position}
    (ended : (partition.script blockSize position).fault = none) :
    partition.encode =
      .ok ((partition.script blockSize position).steps.flatMap (Step.written .data)) := by
  obtain ⟨written, fills⟩ := fills_script ended
  exact encode_eq_ok_iff.2 ⟨written.encoding, fills.data.symm⟩

/-- The bytes of a partition are decoded to it, with an empty static row as none, and no more is
read. -/
theorem decode_encode_append (written : partition.encode = .ok bytes) (fits : partition.UnitsFit)
    {offset : UInt64} (room : offset.toNat + bytes.length < UInt64.size) (rest : Bytes) :
    decode offset (bytes ++ rest) = .ok (partition.normalized, rest) ∧
      ∀ blockSize position, (partition.script blockSize position).fault = none →
        (partition.script blockSize position).steps.flatMap (Step.written .data) = bytes := by
  obtain ⟨encoding, rfl⟩ := encode_eq_ok_iff.1 written
  refine ⟨encoding.reads fits offset room rest, fun blockSize position ended => ?_⟩
  exact Except.ok.inj ((encode_of_script ended).symm.trans written)

/-- A partition with an empty static row, rows with and without cells, and the markers of a range. -/
def motley : Partition where
  key := .ofBytes [0xff, 0]
  deletion := ⟨-7, 3⟩
  staticRow := some (.ofCells [] .live [])
  elements := [.marker ⟨.opening, [], ⟨5, -1⟩⟩,
    .row ⟨[[1], []], .live, [⟨"größe", -2, some []⟩, ⟨"größe", -1, none⟩], by decide +kernel⟩,
    .row ⟨[[2]], ⟨9, 9⟩, [], .nil⟩, .marker ⟨.closing, [[2], [3], []], ⟨5, -1⟩⟩]

/-- Between other bytes the motley partition is decoded without its static row. -/
theorem decode_encode_append_motley :
    ∃ bytes, motley.encode = .ok bytes ∧ decode 8 (bytes ++ [1, 2]) =
      .ok ({ motley with staticRow := none }, [1, 2]) := by
  have normalized : motley.normalized = { motley with staticRow := none } := by decide +kernel
  have encodes : (motley.encode.toOption.any fun bytes => bytes.length < 200) = true := by
    decide +kernel
  have fits : motley.UnitsFit := by decide +kernel
  obtain ⟨bytes, found, short⟩ := (Option.any_eq_true _ _).1 encodes
  have written := Except.toOption_eq_some_iff.1 found
  have size : UInt64.size = 2 ^ 64 := rfl
  have room : (8 : UInt64).toNat + bytes.length < UInt64.size := by
    have eight : (8 : UInt64).toNat = 8 := rfl
    have short := of_decide_eq_true short
    omega
  exact ⟨bytes, written, normalized ▸ (decode_encode_append written fits room [1, 2]).1⟩

end Partition

end SortedTable

import SortedTable.Proofs.Hash.Checksum
import SortedTable.Proofs.Layout.Codec
import SortedTable.Proofs.Layout.Frames
import SortedTable.Proofs.Layout.Statistics

namespace SortedTable

namespace Partition

variable {offset : UInt64} {bytes rest : Bytes} {partition : Partition}

/-- Another body of the same length is refused at the place of its unit, unless it has the same
checksum. -/
theorem decode_around (read : decode offset bytes = .ok (partition, rest)) {header : Header}
    {before : List Frame} {frame : Frame} {back : Bytes} (own : header.key = partition.key)
    (split : bytes = header.encode ++ (before.flatMap Frame.bytes ++ (frame.bytes ++ back)))
    {body : Bytes} (size : body.length = frame.body.length)
    (differs : Checksum.crc32 body ≠ Checksum.crc32 frame.body) :
    ∃ place : UInt64,
      place.toNat = offset.toNat + (header.encode ++ before.flatMap Frame.bytes).length ∧
      decode offset (header.encode ++ (before.flatMap Frame.bytes ++ (frame.around body ++ back))) =
        .error (.checksumMismatch place (Checksum.crc32 frame.body) (Checksum.crc32 body)) := by
  subst split
  obtain ⟨first, units, start, followed, goes⟩ := exists_units_of_decode own read
  obtain ⟨place, reached, fails⟩ := Units.decode_around followed size differs
  refine ⟨place, ?_, ?_⟩
  · rw [List.length_append]
    omega
  · rw [goes, fails]
    rfl

end Partition

/-- Another body in front of the trailer of statistics is refused unless it has the same checksum. -/
theorem Statistics.decode_around {statistics : Statistics} {body changed : Bytes}
    {trailer : List Bytes} (written : statistics.fields = .ok (body :: trailer))
    (differs : Checksum.crc32 changed ≠ Checksum.crc32 body) (size : changed.length = body.length) :
    decode (changed ++ trailer.flatten) = .error (.checksumMismatch (UInt64.ofNat body.length)
      (Checksum.crc32 body) (Checksum.crc32 changed)) := by
  obtain ⟨_, -, same⟩ := Except.map_eq_ok_iff.1 written
  cases same
  rw [List.flatten_cons, List.flatten_cons, List.flatten_nil, List.append_nil, decode_trailer,
    if_neg differs, size]

/-- A change within four bytes in a row is found by the checksum of its unit, or of the statistics. -/
theorem checksumMismatch_of_changedWithin :
    (∀ (offset : UInt64) (bytes rest : Bytes) (partition : Partition),
      Partition.decode offset bytes = .ok (partition, rest) →
      (∃ (header : Header) (frames : List Frame), header.key = partition.key ∧
        frames.length = partition.staticRow.toList.length + partition.elements.length ∧
        bytes = header.encode ++ (frames.flatMap Frame.bytes ++ (endMark ++ rest))) ∧
      ∀ (header : Header) (before : List Frame) (frame : Frame) (back body : Bytes),
        header.key = partition.key →
        bytes = header.encode ++ (before.flatMap Frame.bytes ++ (frame.bytes ++ back)) →
        Bytes.ChangedWithin 4 frame.body body →
        ∃ place : UInt64,
          place.toNat = offset.toNat + (header.encode ++ before.flatMap Frame.bytes).length ∧
          Partition.decode offset
              (header.encode ++ (before.flatMap Frame.bytes ++ (frame.around body ++ back))) =
            .error (.checksumMismatch place (Checksum.crc32 frame.body) (Checksum.crc32 body))) ∧
    ∀ (statistics : Statistics) (body changed : Bytes) (trailer : List Bytes),
      statistics.fields = .ok (body :: trailer) → Bytes.ChangedWithin 4 body changed →
      Statistics.decode (changed ++ trailer.flatten) =
        .error (.checksumMismatch (UInt64.ofNat body.length) (Checksum.crc32 body)
          (Checksum.crc32 changed)) := by
  refine ⟨fun offset bytes rest partition read => ⟨Partition.exists_frames_of_decode read, ?_⟩, ?_⟩
  · intro header before frame back body own split change
    exact Partition.decode_around read own split change.length_eq (Checksum.crc32_ne change)
  · intro statistics body changed trailer written change
    exact Statistics.decode_around written (Checksum.crc32_ne change) change.length_eq

/-- A partition with the start of a deleted range and a row of one cell. -/
def Partition.lone : Partition where
  key := .ofBytes [7]
  deletion := ⟨-7, 3⟩
  elements := [.marker ⟨.opening, [], ⟨5, -1⟩⟩, .row (.ofCells [[1]] .live [⟨"v", 5, some [97]⟩])]

/-- The marker of the lone partition as a unit. -/
def Frame.loneMarker : Frame where
  kind := markerKind
  body := [0, 0, 0] ++ (Deletion.mk 5 (-1)).encode
  live := by decide
  small := by simp [maxUnitBytes]

/-- The row of the lone partition as a unit, with its value in the last byte. -/
def Frame.loneRow (value : UInt8) : Frame where
  kind := rowKind
  body := [1, 0, 1, 0, 0, 0, 1] ++ Deletion.live.encode ++
    [1, 0, 0, 0, 1, 0, 118, 5, 0, 0, 0, 0, 0, 0, 0, 0, 1, 0, 0, 0] ++ [value]
  live := by decide
  small := by simp [maxUnitBytes]

/-- The lone partition is read at 8 in front of two more bytes. -/
theorem Partition.decode_lone : decode 8
    (Header.encode ⟨.ofBytes [7], ⟨-7, 3⟩, 0⟩ ++ (Frame.loneMarker.bytes ++
      ((Frame.loneRow 97).bytes ++ (endMark ++ [1, 2])))) = .ok (lone.normalized, [1, 2]) := by
  have bytes : lone.encode.toOption = some (Header.encode ⟨.ofBytes [7], ⟨-7, 3⟩, 0⟩ ++
      (Frame.loneMarker.bytes ++ ((Frame.loneRow 97).bytes ++ endMark))) := by decide +kernel
  obtain ⟨encoding, written⟩ := encode_eq_ok_iff.1 (Except.toOption_eq_some_iff.1 bytes)
  have fits : lone.UnitsFit := by decide +kernel
  have room : (8 : UInt64).toNat + encoding.bytes.length < UInt64.size := by
    rw [written]
    decide +kernel
  have read := encoding.reads fits 8 room [1, 2]
  rw [written] at read
  simpa only [List.append_assoc] using read

/-- Another value in the row of the lone partition is found at 48, and another count in statistics
too. -/
theorem checksumMismatch_of_changedWithin_lone :
    (∃ expected actual, Partition.decode 8
        (Header.encode ⟨.ofBytes [7], ⟨-7, 3⟩, 0⟩ ++ (Frame.loneMarker.bytes ++
          ((Frame.loneRow 97).around (Frame.loneRow 98).body ++ (endMark ++ [1, 2])))) =
        .error (.checksumMismatch 48 expected actual)) ∧
      ∃ tail trailer expected actual, (Statistics.empty 0).fields = .ok ((0 :: tail) :: trailer) ∧
        Statistics.decode ((1 :: tail) ++ trailer.flatten) =
          .error (.checksumMismatch 60 expected actual) := by
  obtain ⟨units, statistics⟩ := checksumMismatch_of_changedWithin
  constructor
  · obtain ⟨place, reached, found⟩ := (units 8 _ [1, 2] _ Partition.decode_lone).2
      ⟨.ofBytes [7], ⟨-7, 3⟩, 0⟩ [Frame.loneMarker] (Frame.loneRow 97) (endMark ++ [1, 2])
      (Frame.loneRow 98).body rfl (by simp) ⟨_, [97], [98], [], rfl, rfl, rfl, by decide, by decide⟩
    have behind : place = 48 := UInt64.toNat_inj.1 (reached.trans (by decide +kernel))
    rw [behind, List.flatMap_singleton] at found
    exact ⟨_, _, found⟩
  · exact ⟨_, _, _, _, rfl, statistics (.empty 0) _ _ _ rfl
      ⟨[], [0], [1], _, rfl, rfl, rfl, by decide, by decide⟩⟩

end SortedTable

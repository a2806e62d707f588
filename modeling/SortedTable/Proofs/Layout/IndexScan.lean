import SortedTable.Proofs.Decoder.Stable
import SortedTable.Proofs.Layout.IndexEntry

namespace SortedTable

open Decoder

/-- An entry that is cut behind the length of its key runs out of bytes. -/
theorem IndexRecord.runsOut_decodeBehind (key : Bytes) (position : UInt64) {promoted : Bytes}
    (fits : promoted.length ≤ maxPromotedBytes) :
    RunsOut (decodeBehind key.length) (key ++ (Bytes.word64 position ++
      (Bytes.littleEndian 4 promoted.length ++ promoted))) := by
  have bound : maxPromotedBytes < Bytes.limit 4 := by decide
  have short : promoted.length < Bytes.limit 4 := by omega
  refine .bind (.take rfl) (.take rfl) (.bind (.word64 position) (.word64 position)
    (.bind (.little short) (.little 4 _) ?_))
  rw [if_neg (by omega)]
  exact (RunsOut.take rfl).bindLast _

/-- An entry with its key and its fields, whose blocks take no more bytes than a reader accepts. -/
structure WrittenEntry where
  key : Key
  entry : IndexEntry
  fields : List Bytes
  written : IndexEntry.fields key entry = .ok fields
  fits : ∀ promoted, Block.encodeAll entry.blocks = .ok promoted →
    promoted.length ≤ maxPromotedBytes

namespace WrittenEntry

def bytes (one : WrittenEntry) : Bytes := one.fields.flatten

/-- The bytes of entries one after the other. -/
def join (entries : List WrittenEntry) : Bytes := (entries.map bytes).flatten

/-- The entries as a scan notes them, the first one at `position`. -/
def located (position : UInt64) : List WrittenEntry → List ScannedEntry
  | [] => []
  | one :: later =>
      ⟨one.key, one.entry, position⟩ :: located (position + UInt64.ofNat one.bytes.length) later

/-- What a cut leaves of the first of these entries: less than all of its bytes. -/
def IsStub (left : Bytes) : List WrittenEntry → Prop
  | [] => left = []
  | next :: _ => left <+: next.bytes ∧ left ≠ next.bytes

/-- A cut is behind some of the entries and in the next one. -/
theorem exists_isStub {entries : List WrittenEntry} {front : Bytes} (cut : front <+: join entries) :
    ∃ whole later left, entries = whole ++ later ∧ front = join whole ++ left ∧ IsStub left later := by
  induction entries generalizing front with
  | nil => exact ⟨[], [], front, rfl, rfl, List.prefix_nil.1 cut⟩
  | cons one others ih =>
      obtain ⟨inside, strict⟩ | ⟨rest, rfl, behind⟩ :=
        Bytes.prefix_append_cases (show front <+: one.bytes ++ join others from cut)
      · exact ⟨[], one :: others, front, rfl, rfl, inside, strict⟩
      · obtain ⟨whole, later, left, rfl, rfl, stub⟩ := ih behind
        exact ⟨one :: whole, later, left, rfl, (List.append_assoc one.bytes (join whole) left).symm, stub⟩

/-- A scan notes the entries at the front and goes on behind them. -/
theorem scanAfter_join (entries : List WrittenEntry) (rest : Bytes) (position : UInt64)
    (before : List ScannedEntry) :
    IndexEntry.scanAfter (join entries ++ rest) position before =
      IndexEntry.scanAfter rest (position + UInt64.ofNat (join entries).length)
        ((located position entries).reverse ++ before) := by
  induction entries generalizing position before with
  | nil =>
      have none : UInt64.ofNat (join []).length = 0 := rfl
      rw [none, UInt64.add_zero]
      rfl
  | cons one others ih =>
      have front : join (one :: others) ++ rest = one.fields.flatten ++ (join others ++ rest) :=
        List.append_assoc one.bytes (join others) rest
      have length : (join (one :: others)).length = one.bytes.length + (join others).length :=
        List.length_append
      rw [front, IndexEntry.scanAfter_of_fields one.written one.fits, ih, length, UInt64.ofNat_add,
        UInt64.add_assoc, located, List.reverse_cons, List.append_assoc]
      rfl

/-- An entry is the length of its key and bytes that its record runs out of when they are cut. -/
theorem exists_bytes_eq (one : WrittenEntry) :
    ∃ low high behind, one.bytes = low :: high :: behind ∧
      RunsOut (IndexRecord.decodeBehind (Bytes.ofLittleEndian [low, high])) behind := by
  obtain ⟨promoted, blocks, small, -, same⟩ := IndexEntry.fields_eq one.written
  refine ⟨UInt8.ofNat one.key.bytes.length, UInt8.ofNat (one.key.bytes.length / 256),
    one.key.bytes ++ (Bytes.word64 one.entry.dataPosition ++
      (Bytes.littleEndian 4 promoted.length ++ promoted)), ?_, ?_⟩
  · rw [bytes, same]
    simp [Bytes.littleEndian]
  · rw [IndexEntry.length_of_two small]
    exact IndexRecord.runsOut_decodeBehind _ _ (one.fits promoted blocks)

/-- A scan notes nothing of an entry that is cut, and fails unless fewer than two bytes are left of
it. -/
theorem scanAfter_of_isStub {later : List WrittenEntry} {left : Bytes} (stub : IsStub left later)
    (position : UInt64) (before : List ScannedEntry) :
    IndexEntry.scanAfter left position before =
      (before.reverse, if left.length < 2 then none else some (.io .unexpectedEnd)) := by
  rcases left with - | ⟨low, - | ⟨high, behind⟩⟩
  · rw [IndexEntry.scanAfter]
    · rfl
    · rintro _ _ _ ⟨⟩
  · rw [IndexEntry.scanAfter]
    · rfl
    · rintro _ _ _ ⟨⟩
  · cases later with
    | nil => cases stub
    | cons next _ =>
        obtain ⟨inside, strict⟩ := stub
        obtain ⟨low', high', whole, bytes, short⟩ := next.exists_bytes_eq
        rw [bytes, List.cons_prefix_cons, List.cons_prefix_cons] at inside
        obtain ⟨rfl, rfl, inside⟩ := inside
        have failed := short behind inside fun same => strict (by rw [bytes, same])
        rw [IndexEntry.scanAfter]
        split
        · rename_i found
          cases failed.symm.trans found
          rfl
        · rename_i found
          cases failed.symm.trans found

/-- A scan of a cut index finds the entries that are whole, and fails if more than one byte is left. -/
theorem scan_of_cut (entries : List WrittenEntry) {front : Bytes} (cut : front <+: join entries) :
    ∃ whole later left, entries = whole ++ later ∧ front = join whole ++ left ∧ IsStub left later ∧
      IndexEntry.scan front =
        (located 0 whole, if left.length < 2 then none else some (.io .unexpectedEnd)) := by
  obtain ⟨whole, later, left, rfl, rfl, stub⟩ := exists_isStub cut
  refine ⟨whole, later, left, rfl, rfl, stub, ?_⟩
  rw [IndexEntry.scan, scanAfter_join, scanAfter_of_isStub stub, List.append_nil,
    List.reverse_reverse]

/-- An entry of the key `k` without blocks. -/
def bare (position : UInt64) : WrittenEntry where
  key := .ofBytes [107]
  entry := ⟨position, []⟩
  fields := [[1, 0], [107], Bytes.word64 position, [0, 0, 0, 0], []]
  written := rfl
  fits := by
    rintro _ ⟨⟩
    decide

/-- The first of two entries is found when the second one is cut in its position. -/
theorem scan_of_cut_second :
    (bare 0).bytes ++ [1, 0, 107, 20, 0] <+: join [bare 0, bare 20] ∧
      IndexEntry.scan ((bare 0).bytes ++ [1, 0, 107, 20, 0]) =
        ([⟨.ofBytes [107], ⟨0, []⟩, 0⟩], some (.io .unexpectedEnd)) := by
  have cut : (bare 0).bytes ++ [1, 0, 107, 20, 0] <+: join [bare 0, bare 20] :=
    ⟨[0, 0, 0, 0, 0, 0, 0, 0, 0, 0], by decide⟩
  obtain ⟨whole, later, left, split, same, stub, scanned⟩ := scan_of_cut _ cut
  refine ⟨cut, ?_⟩
  rw [scanned]
  rcases whole with - | ⟨one, - | ⟨two, others⟩⟩
  · cases split
    cases same
    exact absurd stub.1.length_le (by decide)
  · cases split
    cases List.append_cancel_left same
    rfl
  · obtain ⟨rfl, rest⟩ := List.cons.inj split
    obtain ⟨rfl, -⟩ := List.cons.inj rest
    have length := congrArg List.length same
    simp [join, bytes, bare] at length
    omega

/-- The first byte of an entry is no entry, and a scan of it reaches the end. -/
theorem scan_of_first_byte : [1] <+: join [bare 0] ∧
    IndexEntry.scan [1] = ([], none) ∧ ∀ count, join ([bare 0].take count) ≠ [1] := by
  refine ⟨by decide, ?_, ?_⟩
  · rw [IndexEntry.scan, IndexEntry.scanAfter]
    · rfl
    · rintro _ _ _ ⟨⟩
  · rintro (- | count)
    · decide
    · rw [List.take_succ_cons, List.take_nil]
      decide

end WrittenEntry

end SortedTable

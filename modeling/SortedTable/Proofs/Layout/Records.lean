import SortedTable.Proofs.Decoder.Exact
import SortedTable.Proofs.Layout.IndexEntry

namespace SortedTable

open Decoder

namespace IndexRecord

/-- The bytes of a record. -/
def encode (record : IndexRecord) : Bytes :=
  Bytes.littleEndian 2 record.key.length ++ (record.key ++ (Bytes.word64 record.dataPosition ++
    (Bytes.littleEndian 4 record.promoted.length ++ record.promoted)))

theorem decodeBehind_eq_ok_iff {keyLength : Nat} {record : IndexRecord} {bytes rest : Bytes} :
    decodeBehind keyLength bytes = .ok (record, rest) ↔
      record.key.length = keyLength ∧ record.promoted.length ≤ maxPromotedBytes ∧
        bytes = record.key ++ (Bytes.word64 record.dataPosition ++
          (Bytes.littleEndian 4 record.promoted.length ++ (record.promoted ++ rest))) := by
  constructor
  · intro read
    obtain ⟨key, behind, first, read⟩ := bind_eq_ok_iff.1 read
    obtain ⟨dataPosition, behind', second, read⟩ := bind_eq_ok_iff.1 read
    obtain ⟨length, behind'', third, read⟩ := bind_eq_ok_iff.1 read
    split at read
    · cases read
    · rename_i small
      obtain ⟨promoted, left, fourth, same⟩ := bind_eq_ok_iff.1 read
      obtain ⟨rfl, rfl⟩ := pure_eq_ok_iff.1 same
      obtain ⟨rfl, rfl⟩ := take_eq_ok_iff.1 first
      obtain rfl := word64_eq_ok_iff.1 second
      obtain ⟨-, rfl⟩ := little_eq_ok_iff.1 third
      obtain ⟨rfl, rfl⟩ := take_eq_ok_iff.1 fourth
      exact ⟨rfl, Nat.le_of_not_lt small, rfl⟩
  · rintro ⟨rfl, small, rfl⟩
    have bound : maxPromotedBytes < Bytes.limit 4 := by decide
    have short : record.promoted.length < Bytes.limit 4 := by omega
    rw [decodeBehind, (Reads.take rfl).bind_append, (Reads.word64 _).bind_append,
      (Reads.little short).bind_append, if_neg (by omega), (Reads.take rfl).bind_append]
    rfl

/-- A record whose blocks take more bytes than a reader accepts is refused in front of them. -/
theorem decodeBehind_of_large {record : IndexRecord} (short : record.promoted.length < Bytes.limit 4)
    (large : maxPromotedBytes < record.promoted.length) (rest : Bytes) :
    decodeBehind record.key.length (record.key ++ (Bytes.word64 record.dataPosition ++
      (Bytes.littleEndian 4 record.promoted.length ++ rest))) =
      .error (.corrupt (.promotedIndexTooLarge record.promoted.length)) := by
  rw [decodeBehind, (Reads.take rfl).bind_append, (Reads.word64 _).bind_append,
    (Reads.little short).bind_append, if_pos large]
  rfl

/-- The bytes of a record are the length of its key and what is read behind it. -/
theorem encode_append (record : IndexRecord) (rest : Bytes) :
    record.encode ++ rest = UInt8.ofNat record.key.length :: UInt8.ofNat (record.key.length / 256) ::
      (record.key ++ (Bytes.word64 record.dataPosition ++
        (Bytes.littleEndian 4 record.promoted.length ++ (record.promoted ++ rest)))) := by
  simp [encode, Bytes.littleEndian]

/-- A record that is read behind the two bytes of a length stands there with its bytes. -/
theorem eq_encode_append {record : IndexRecord} {low high : UInt8} {behind rest : Bytes}
    (read : decodeBehind (Bytes.ofLittleEndian [low, high]) behind = .ok (record, rest)) :
    record.key.length < Bytes.limit 2 ∧ record.promoted.length ≤ maxPromotedBytes ∧
      low :: high :: behind = record.encode ++ rest := by
  obtain ⟨size, small, rfl⟩ := decodeBehind_eq_ok_iff.1 read
  have front : Bytes.littleEndian 2 record.key.length = [low, high] := by
    rw [size]
    exact Bytes.littleEndian_ofLittleEndian [low, high]
  refine ⟨size ▸ Bytes.ofLittleEndian_lt_limit [low, high], small, ?_⟩
  simp [encode, front]

theorem size_eq {record : IndexRecord} (short : record.key.length < Bytes.limit 2)
    (fits : record.promoted.length < Bytes.limit 4) :
    record.size = UInt64.ofNat record.encode.length := by
  have two : Bytes.limit 2 = 65536 := rfl
  have four : Bytes.limit 4 = 4294967296 := rfl
  apply UInt64.toNat_inj.1
  rw [size, IndexEntry.toNat_sizeWith _ _ short fits, UInt64.toNat_ofNat']
  simp only [encode, List.length_append, Bytes.length_littleEndian, Bytes.length_word64]
  omega

end IndexRecord

namespace IndexEntry

/-- A record in front of other bytes is read as its entry, unless its blocks take too many bytes. -/
theorem decode?_encode {record : IndexRecord} (short : record.key.length < Bytes.limit 2)
    (fits : record.promoted.length < Bytes.limit 4) (rest : Bytes) :
    decode? (record.encode ++ rest) =
      if maxPromotedBytes < record.promoted.length then
        .error (.corrupt (.promotedIndexTooLarge record.promoted.length))
      else record.entry.map fun entry => some (.ofBytes record.key, entry) := by
  rw [record.encode_append, decode?, length_of_two short]
  by_cases large : maxPromotedBytes < record.promoted.length
  · rw [if_pos large, IndexRecord.decodeBehind_of_large fits large]
  · rw [if_neg large, IndexRecord.decodeBehind_eq_ok_iff.2 ⟨rfl, Nat.le_of_not_lt large, rfl⟩]

/-- Bytes that are read as an entry begin with the bytes of a record. -/
theorem exists_record_of_decode? {bytes : Bytes} {key : Key} {entry : IndexEntry}
    (read : decode? bytes = .ok (some (key, entry))) :
    ∃ (record : IndexRecord) (rest : Bytes), record.key.length < Bytes.limit 2 ∧
      record.promoted.length ≤ maxPromotedBytes ∧ bytes = record.encode ++ rest ∧
      key = .ofBytes record.key ∧ record.entry = .ok entry := by
  rcases bytes with - | ⟨low, - | ⟨high, behind⟩⟩
  · cases read
  · cases read
  · rw [decode?] at read
    cases found : IndexRecord.decodeBehind (Bytes.ofLittleEndian [low, high]) behind with
    | error cause =>
        rw [found] at read
        cases read
    | ok result =>
        rw [found] at read
        obtain ⟨short, small, bytes⟩ := IndexRecord.eq_encode_append found
        obtain ⟨held, entry, same⟩ := Except.map_eq_ok_iff.1 read
        cases same
        exact ⟨result.1, result.2, short, small, bytes, rfl, entry⟩

/-- What reading an entry gives where a scan stops. -/
def stopped (fault : Option TableError) : Except TableError (Option (Key × IndexEntry)) :=
  fault.elim (.ok none) .error

/-- Every entry that a scan notes stands at its position, and the scan stops where none can be read. -/
theorem decode?_of_scanAfter {bytes : Bytes} {position : UInt64} {before entries : List ScannedEntry}
    {fault : Option TableError} (scanned : scanAfter bytes position before = (entries, fault)) :
    ∃ added front back, entries = before.reverse ++ added ∧ bytes = front ++ back ∧
      decode? back = stopped fault ∧
      ∀ one ∈ added, ∃ front back, bytes = front ++ back ∧
        one.position = position + UInt64.ofNat front.length ∧
        decode? back = .ok (some (one.key, one.entry)) := by
  fun_induction scanAfter bytes position before with
  | case1 position before low high behind error read =>
      cases scanned
      refine ⟨[], [], low :: high :: behind, (List.append_nil _).symm, rfl, ?_, nofun⟩
      rw [decode?, read]
      rfl
  | case2 position before low high behind record rest read error broken =>
      cases scanned
      refine ⟨[], [], low :: high :: behind, (List.append_nil _).symm, rfl, ?_, nofun⟩
      rw [decode?, read]
      dsimp only
      rw [broken]
      rfl
  | case3 position before low high behind record rest read entry held ih =>
      obtain ⟨short, small, bytes⟩ := IndexRecord.eq_encode_append read
      obtain ⟨added, front, back, rfl, split, ended, located⟩ := ih scanned
      refine ⟨⟨.ofBytes record.key, entry, position⟩ :: added, record.encode ++ front, back, ?_, ?_,
        ended, ?_⟩
      · rw [List.reverse_cons, List.append_assoc, List.singleton_append]
      · rw [bytes, split, List.append_assoc]
      · intro one member
        rcases List.mem_cons.1 member with rfl | later
        · refine ⟨[], low :: high :: behind, rfl, (UInt64.add_zero _).symm, ?_⟩
          rw [decode?, read]
          dsimp only
          rw [held]
          rfl
        · obtain ⟨front, back, rfl, place, again⟩ := located one later
          refine ⟨record.encode ++ front, back, ?_, ?_, again⟩
          · rw [bytes, List.append_assoc]
          · have bound : maxPromotedBytes < Bytes.limit 4 := by decide
            rw [place, IndexRecord.size_eq short (by omega), List.length_append, UInt64.ofNat_add,
              UInt64.add_assoc]
  | case4 bytes position before few =>
      cases scanned
      refine ⟨[], [], bytes, (List.append_nil _).symm, rfl, ?_, nofun⟩
      rw [decode?]
      · rfl
      · exact few

/-- Every entry that a scan notes is read again at its position, if it has one. -/
theorem decode?_of_scan {bytes : Bytes} {entries : List ScannedEntry} {fault : Option TableError}
    (scanned : scan bytes = (entries, fault)) (room : bytes.length < UInt64.size)
    {one : ScannedEntry} (member : one ∈ entries) :
    one.position.toNat < bytes.length ∧
      decode? (bytes.drop one.position.toNat) = .ok (some (one.key, one.entry)) := by
  obtain ⟨added, -, -, rfl, -, -, located⟩ := decode?_of_scanAfter scanned
  obtain ⟨front, back, rfl, place, again⟩ := located one member
  rw [List.length_append] at room ⊢
  rw [place, UInt64.zero_add, UInt64.toNat_ofNat_of_lt' (show front.length < UInt64.size by omega),
    List.drop_left]
  refine ⟨?_, again⟩
  cases back with
  | nil => cases again
  | cons first others =>
      rw [List.length_cons]
      omega

end IndexEntry

end SortedTable

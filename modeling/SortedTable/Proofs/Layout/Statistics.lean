import SortedTable.Layout.Statistics
import SortedTable.Proofs.Layout.Row
import SortedTable.Proofs.Statistics

namespace SortedTable.Statistics

open Decoder

theorem encodeKey_eq_ok_iff {key encoded : Bytes} :
    encodeKey key = .ok encoded ↔
      key.length < Bytes.limit 2 ∧ encoded = Bytes.littleEndian 2 key.length ++ key := by
  have same : maxKeyBytes + 1 = Bytes.limit 2 := rfl
  unfold encodeKey
  split
  · simp [show key.length < Bytes.limit 2 by omega, eq_comm]
  · simp [show ¬key.length < Bytes.limit 2 by omega]

/-- The body is read back, whatever follows it. -/
theorem reads_of_encodeBody {statistics : Statistics} {body : Bytes}
    (written : statistics.encodeBody = .ok body) : Reads decodeBody body statistics := by
  obtain ⟨first, firstKey, written⟩ := Except.bind_eq_ok_iff.1 written
  obtain ⟨last, lastKey, same⟩ := Except.bind_eq_ok_iff.1 written
  cases Except.pure_eq_ok_iff.1 same
  obtain ⟨firstSmall, rfl⟩ := encodeKey_eq_ok_iff.1 firstKey
  obtain ⟨lastSmall, rfl⟩ := encodeKey_eq_ok_iff.1 lastKey
  simp only [List.append_assoc]
  exact (Reads.word64 _).bind <| (Reads.word64 _).bind <| (Reads.word64 _).bind <|
    (Reads.word64 _).bind <| (Reads.int64 _).bind <| (Reads.int64 _).bind <|
    (Reads.little firstSmall).bind <| (Reads.take rfl).bind <|
    (Reads.little lastSmall).bind <| (Reads.take rfl).bind <|
    (Reads.word64 _).bindPure rfl

/-- In front of a checksum and the magic number a body is decoded if it has this checksum. -/
theorem decode_trailer (body : Bytes) (expected : UInt32) :
    decode (body ++ (Bytes.word32 expected ++ Bytes.word32 magic)) =
      if Checksum.crc32 body = expected then (decodeBody body).map Prod.fst
      else .error (.checksumMismatch (UInt64.ofNat body.length) expected (Checksum.crc32 body)) := by
  have size : (body ++ (Bytes.word32 expected ++ Bytes.word32 magic)).length = body.length + 8 := by
    simp
  have word (value : UInt32) :
      UInt32.ofNat (Bytes.ofLittleEndian (Bytes.word32 value)) = value := by
    rw [Bytes.word32, Bytes.ofLittleEndian_littleEndian_of_lt value.toNat_lt, UInt32.ofNat_toNat]
  have four (value : UInt32) (rest : Bytes) : (Bytes.word32 value ++ rest).take 4 =
      Bytes.word32 value := List.take_left' (Bytes.length_word32 value)
  have behind (value : UInt32) (rest : Bytes) : (Bytes.word32 value ++ rest).drop 4 = rest :=
    List.drop_left' (Bytes.length_word32 value)
  rw [decode, if_neg (by omega), size, Nat.add_sub_cancel, List.take_left, List.drop_left]
  dsimp only
  rw [four, behind, word, word, if_neg (by simp)]
  by_cases same : Checksum.crc32 body = expected
  · rw [if_neg (by simp [same]), if_pos same]
  · rw [if_pos same, if_neg same]

/-- The file of the statistics decodes to them. -/
theorem decode_of_fields {statistics : Statistics} {fields : List Bytes}
    (written : statistics.fields = .ok fields) : decode fields.flatten = .ok statistics := by
  obtain ⟨body, encodes, rfl⟩ := Except.map_eq_ok_iff.1 written
  have read := reads_of_encodeBody encodes []
  rw [List.append_nil] at read
  rw [List.flatten_cons, List.flatten_cons, List.flatten_cons, List.flatten_nil, List.append_nil,
    decode_trailer, if_pos rfl, read]
  rfl

/-- The keys at both ends can be stored. -/
structure HasShortKeys (statistics : Statistics) : Prop where
  first : statistics.firstKey.length ≤ maxKeyBytes
  last : statistics.lastKey.length ≤ maxKeyBytes

theorem HasShortKeys.add {statistics : Statistics} (short : statistics.HasShortKeys)
    {partition : Partition} (own : partition.key.bytes.length ≤ maxKeyBytes) :
    (statistics.add partition).HasShortKeys := by
  obtain ⟨-, keys⟩ := Prod.mk.inj (ends_add statistics partition)
  obtain ⟨firstKey, lastKey⟩ := Prod.mk.inj keys
  refine ⟨?_, ?_⟩
  · rw [firstKey, addKey]
    dsimp only
    split
    · exact own
    · exact short.first
  · rw [lastKey]
    exact own

/-- Statistics with keys that can be stored have their fields. -/
theorem HasShortKeys.exists_fields {statistics : Statistics} (short : statistics.HasShortKeys) :
    ∃ fields, statistics.fields = .ok fields ∧ fields.flatten.length ≤ 2 * maxKeyBytes + 68 := by
  have first := short.first
  have last := short.last
  have encodes : statistics.encodeBody = .ok _ :=
    Except.bind_eq_ok_iff.2 ⟨_, if_pos first, Except.bind_eq_ok_iff.2 ⟨_, if_pos last, rfl⟩⟩
  refine ⟨_, Except.map_eq_ok_iff.2 ⟨_, encodes, rfl⟩, ?_⟩
  simp
  omega

end SortedTable.Statistics

import SortedTable.Proofs.Layout.Partition

namespace SortedTable

open Decoder

namespace Block

theorem reads_of_encode {block : Block} {encoded : Bytes} (written : block.encode = .ok encoded) :
    Reads decode encoded block := by
  obtain ⟨first, placed, written⟩ := Except.bind_eq_ok_iff.1 written
  obtain ⟨last, placed', same⟩ := Except.bind_eq_ok_iff.1 written
  cases Except.pure_eq_ok_iff.1 same
  rw [List.append_assoc, List.append_assoc]
  exact (Clustering.reads_of_encode placed).bind ((Clustering.reads_of_encode placed').bind
    ((Reads.word64 block.offset).bind ((Reads.word64 block.width).bindPure rfl)))

/-- Blocks are read back; no blocks have no bytes. -/
theorem decodeAll_of_encodeAll {blocks : List Block} {encoded : Bytes}
    (written : encodeAll blocks = .ok encoded) : decodeAll encoded = .ok blocks := by
  unfold encodeAll at written
  split at written
  · rename_i none
    cases written
    cases List.isEmpty_iff.1 none
    rfl
  · obtain ⟨count, fits, written⟩ := Except.bind_eq_ok_iff.1 written
    obtain ⟨each, encodes, same⟩ := Except.bind_eq_ok_iff.1 written
    cases Except.pure_eq_ok_iff.1 same
    have held : List.Forall₂ (Reads decode) each blocks :=
      (Except.mapM_eq_ok_iff.1 encodes).flip.imp fun _ _ => reads_of_encode
    have read := ((reads_of_lengthPrefix fits).bind (Reads.many rfl held)) []
    rw [List.append_nil] at read
    obtain ⟨-, rfl⟩ := lengthPrefix_eq_ok_iff.1 fits
    have some : (Bytes.littleEndian 4 blocks.length ++ each.flatten).isEmpty = false := by
      simp [Bytes.littleEndian]
    rw [decodeAll, some]
    exact congrArg (Except.map Prod.fst) read

end Block

theorem liftIo_eq_ok_iff {ε α : Type} [OfIoError ε] {result : Except IoError α} {value : α} :
    (liftIo result : Except ε α) = .ok value ↔ result = .ok value := by
  cases result <;> simp [liftIo]

namespace IndexEntry

/-- The number of bytes of an entry, by the lengths of its key and of its blocks. -/
theorem toNat_sizeWith (keyLength promotedLength : Nat) (key : keyLength < Bytes.limit 2)
    (promoted : promotedLength < Bytes.limit 4) :
    (sizeWith keyLength promotedLength).toNat = keyLength + promotedLength + 14 := by
  have two : (2 : UInt64).toNat = 2 := rfl
  have eight : (8 : UInt64).toNat = 8 := rfl
  have four : (4 : UInt64).toNat = 4 := rfl
  have short : Bytes.limit 2 = 65536 := rfl
  have long : Bytes.limit 4 = 4294967296 := rfl
  simp only [sizeWith, UInt64.toNat_add, UInt64.toNat_ofNat', two, eight, four]
  omega

/-- What is written of an entry: its key behind its length, the position, and its blocks behind
theirs. -/
theorem fields_eq {key : Key} {entry : IndexEntry} {fields : List Bytes}
    (written : IndexEntry.fields key entry = .ok fields) :
    ∃ promoted, Block.encodeAll entry.blocks = .ok promoted ∧ key.bytes.length < Bytes.limit 2 ∧
      promoted.length < Bytes.limit 4 ∧
      fields = [Bytes.littleEndian 2 key.bytes.length, key.bytes, Bytes.word64 entry.dataPosition,
        Bytes.littleEndian 4 promoted.length, promoted] := by
  obtain ⟨name, named, written⟩ := Except.bind_eq_ok_iff.1 written
  obtain ⟨promoted, encodes, written⟩ := Except.bind_eq_ok_iff.1 written
  obtain ⟨length, prefixed, same⟩ := Except.bind_eq_ok_iff.1 written
  cases Except.pure_eq_ok_iff.1 same
  obtain ⟨small, rfl⟩ := Key.fields_eq_ok_iff.1 named
  obtain ⟨short, rfl⟩ := lengthPrefix_eq_ok_iff.1 (liftIo_eq_ok_iff.1 prefixed)
  exact ⟨promoted, liftIo_eq_ok_iff.1 encodes, small, short, rfl⟩

/-- An entry without blocks can be written for every key that can. -/
theorem exists_fields {key : Key} (small : key.bytes.length < Bytes.limit 2) (position : UInt64) :
    ∃ fields, IndexEntry.fields key ⟨position, []⟩ = .ok fields ∧
      fields.flatten.length = key.bytes.length + 14 := by
  have named := Key.fields_eq_ok_iff.2 ⟨small, rfl⟩
  refine ⟨_, Except.bind_eq_ok_iff.2 ⟨_, named, rfl⟩, ?_⟩
  simp
  omega

/-- An entry takes up at least the bytes of the length of its key. -/
theorem length_pos_of_fields {key : Key} {entry : IndexEntry} {fields : List Bytes}
    (written : IndexEntry.fields key entry = .ok fields) : 0 < fields.flatten.length := by
  obtain ⟨promoted, -, -, -, rfl⟩ := fields_eq written
  rw [List.flatten_cons, List.length_append, Bytes.length_littleEndian]
  omega

/-- The two bytes of a length in front of a key give it back. -/
theorem length_of_two {length : Nat} (small : length < Bytes.limit 2) :
    Bytes.ofLittleEndian [UInt8.ofNat length, UInt8.ofNat (length / 256)] = length :=
  Bytes.ofLittleEndian_littleEndian_of_lt small

/-- An entry that a reader accepts is the length of its key and what the record is read from. -/
theorem record_of_fields {key : Key} {entry : IndexEntry} {fields : List Bytes}
    (written : IndexEntry.fields key entry = .ok fields)
    (fits : ∀ promoted, Block.encodeAll entry.blocks = .ok promoted →
      promoted.length ≤ maxPromotedBytes) :
    ∃ low high behind record, fields.flatten = low :: high :: behind ∧
      Reads (IndexRecord.decodeBehind (Bytes.ofLittleEndian [low, high])) behind record ∧
      record.key = key.bytes ∧ record.entry = .ok entry ∧
      record.size = UInt64.ofNat fields.flatten.length := by
  obtain ⟨promoted, blocks, small, short, rfl⟩ := fields_eq written
  have accepted := fits promoted blocks
  have sixteen : Bytes.limit 2 = 2 ^ 16 := rfl
  have bound : maxPromotedBytes < 2 ^ 32 := by decide
  have read : Reads (IndexRecord.decodeBehind key.bytes.length)
      (key.bytes ++ (Bytes.word64 entry.dataPosition ++
        (Bytes.littleEndian 4 promoted.length ++ promoted)))
      ⟨key.bytes, entry.dataPosition, promoted⟩ := by
    refine (Reads.take rfl).bind ((Reads.word64 entry.dataPosition).bind
      ((Reads.little short).bind ?_))
    rw [if_neg (by omega)]
    exact (Reads.take rfl).bindPure rfl
  refine ⟨UInt8.ofNat key.bytes.length, UInt8.ofNat (key.bytes.length / 256),
    key.bytes ++ (Bytes.word64 entry.dataPosition ++
      (Bytes.littleEndian 4 promoted.length ++ promoted)),
    ⟨key.bytes, entry.dataPosition, promoted⟩, ?_, ?_, rfl, ?_, ?_⟩
  · simp [Bytes.littleEndian]
  · rw [length_of_two small]
    exact read
  · rw [IndexRecord.entry, Block.decodeAll_of_encodeAll blocks]
    rfl
  · apply UInt64.toNat_inj.1
    have size := toNat_sizeWith key.bytes.length promoted.length small short
    change (sizeWith key.bytes.length promoted.length).toNat = _
    rw [size, UInt64.toNat_ofNat']
    simp
    omega

/-- The entry at the front is read with its key. -/
theorem decode?_of_fields {key : Key} {entry : IndexEntry} {fields : List Bytes}
    (written : IndexEntry.fields key entry = .ok fields)
    (fits : ∀ promoted, Block.encodeAll entry.blocks = .ok promoted →
      promoted.length ≤ maxPromotedBytes) (rest : Bytes) :
    decode? (fields.flatten ++ rest) = .ok (some (key, entry)) := by
  obtain ⟨low, high, behind, record, front, read, named, held, -⟩ := record_of_fields written fits
  rw [front, List.cons_append, List.cons_append, decode?, read rest]
  dsimp only
  rw [held, named, Key.ofBytes_bytes]
  rfl

/-- A scan notes the entry at the front and goes on behind it. -/
theorem scanAfter_of_fields {key : Key} {entry : IndexEntry} {fields : List Bytes}
    (written : IndexEntry.fields key entry = .ok fields)
    (fits : ∀ promoted, Block.encodeAll entry.blocks = .ok promoted →
      promoted.length ≤ maxPromotedBytes) (rest : Bytes) (position : UInt64)
    (before : List ScannedEntry) :
    scanAfter (fields.flatten ++ rest) position before =
      scanAfter rest (position + UInt64.ofNat fields.flatten.length)
        (⟨key, entry, position⟩ :: before) := by
  obtain ⟨low, high, behind, record, front, read, named, held, size⟩ :=
    record_of_fields written fits
  rw [← size, front, List.cons_append, List.cons_append, scanAfter]
  split
  · rename_i failed
    rw [read rest] at failed
    cases failed
  · rename_i found
    rw [read rest] at found
    cases found
    rw [held, named, Key.ofBytes_bytes]

/-- A scan stops at an entry whose blocks take more bytes than a reader accepts. -/
theorem scanAfter_of_large {key : Key} {entry : IndexEntry} {fields : List Bytes}
    (written : IndexEntry.fields key entry = .ok fields) {promoted : Bytes}
    (encodes : Block.encodeAll entry.blocks = .ok promoted)
    (large : maxPromotedBytes < promoted.length) (rest : Bytes) (position : UInt64)
    (before : List ScannedEntry) :
    scanAfter (fields.flatten ++ rest) position before =
      (before.reverse, some (.corrupt (.promotedIndexTooLarge promoted.length))) := by
  obtain ⟨found, encodes', small, short, rfl⟩ := fields_eq written
  cases encodes.symm.trans encodes'
  have refused : IndexRecord.decodeBehind key.bytes.length
      (key.bytes ++ (Bytes.word64 entry.dataPosition ++
        (Bytes.littleEndian 4 promoted.length ++ (promoted ++ rest)))) =
      .error (.corrupt (.promotedIndexTooLarge promoted.length)) := by
    rw [IndexRecord.decodeBehind, (Reads.take rfl).bind_append, (Reads.word64 _).bind_append,
      (Reads.little short).bind_append, if_pos large]
    rfl
  have bytes : [Bytes.littleEndian 2 key.bytes.length, key.bytes,
      Bytes.word64 entry.dataPosition, Bytes.littleEndian 4 promoted.length, promoted].flatten ++
        rest = UInt8.ofNat key.bytes.length :: UInt8.ofNat (key.bytes.length / 256) ::
      (key.bytes ++ (Bytes.word64 entry.dataPosition ++
        (Bytes.littleEndian 4 promoted.length ++ (promoted ++ rest)))) := by
    simp [Bytes.littleEndian]
  rw [bytes, scanAfter]
  split
  · rename_i read
    rw [length_of_two small, refused] at read
    cases read
    rfl
  · rename_i read
    rw [length_of_two small, refused] at read
    cases read

end IndexEntry

end SortedTable

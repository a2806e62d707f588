import SortedTable.Proofs.Bytes
import SortedTable.Proofs.Decoder

namespace SortedTable.Decoder

variable {ε α β : Type}

theorem bind_eq_ok_iff {decoder : Decoder ε α} {next : α → Decoder ε β} {bytes rest : Bytes}
    {value : β} : (decoder >>= next) bytes = .ok (value, rest) ↔
      ∃ first middle, decoder bytes = .ok (first, middle) ∧ next first middle = .ok (value, rest) := by
  constructor
  · intro read
    obtain ⟨⟨first, middle⟩, taken, further⟩ := Except.bind_eq_ok_iff.1 read
    exact ⟨first, middle, taken, further⟩
  · rintro ⟨first, middle, taken, further⟩
    exact Except.bind_eq_ok_iff.2 ⟨(first, middle), taken, further⟩

/-- What follows a value that was read goes on with what is left. -/
theorem bind_of_eq_ok {decoder : Decoder ε α} {bytes rest : Bytes} {value : α}
    (taken : decoder bytes = .ok (value, rest)) (next : α → Decoder ε β) :
    (decoder >>= next) bytes = next value rest := by
  change (decoder bytes).bind (fun result => next result.1 result.2) = _
  rw [taken]
  rfl

theorem pure_eq_ok_iff {value result : α} {bytes rest : Bytes} :
    (Pure.pure value : Decoder ε α) bytes = .ok (result, rest) ↔ value = result ∧ bytes = rest :=
  ⟨fun same => by cases same; exact ⟨rfl, rfl⟩, fun ⟨same, behind⟩ => by rw [same, behind]; rfl⟩

theorem map_eq_ok_iff {decoder : Decoder ε α} {change : α → β} {bytes rest : Bytes} {value : β} :
    (change <$> decoder) bytes = .ok (value, rest) ↔
      ∃ first, decoder bytes = .ok (first, rest) ∧ change first = value := by
  constructor
  · intro read
    obtain ⟨⟨first, middle⟩, taken, same⟩ := Except.bind_eq_ok_iff.1 read
    cases same
    exact ⟨first, taken, rfl⟩
  · rintro ⟨first, taken, rfl⟩
    exact Except.bind_eq_ok_iff.2 ⟨(first, rest), taken, rfl⟩

section Many

variable {item : Decoder ε α} {fits : α → Prop} {encode : α → Bytes}

theorem manyAfter_eq_ok_iff
    (exact : ∀ {bytes value rest}, item bytes = .ok (value, rest) ↔
      fits value ∧ bytes = encode value ++ rest)
    {count : Nat} {before values : List α} {bytes rest : Bytes} :
    manyAfter item count before bytes = .ok (values, rest) ↔
      ∃ added : List α, values = before.reverse ++ added ∧ added.length = count ∧
        (∀ value ∈ added, fits value) ∧ bytes = (added.map encode).flatten ++ rest := by
  induction count generalizing before bytes with
  | zero =>
      rw [manyAfter, Except.ok.injEq, Prod.mk.injEq]
      constructor
      · rintro ⟨rfl, rfl⟩
        exact ⟨[], (List.append_nil _).symm, rfl, List.forall_mem_nil _, rfl⟩
      · rintro ⟨added, rfl, none, -, rfl⟩
        cases List.eq_nil_of_length_eq_zero none
        exact ⟨(List.append_nil _).symm, rfl⟩
  | succ count ih =>
      rw [manyAfter]
      dsimp only
      constructor
      · intro read
        split at read
        · rename_i first behind taken
          obtain ⟨fit, rfl⟩ := exact.1 taken
          obtain ⟨added, rfl, length, fitting, rfl⟩ := ih.1 read
          refine ⟨first :: added, ?_, congrArg Nat.succ length, List.forall_mem_cons.2 ⟨fit, fitting⟩,
            ?_⟩
          · rw [List.reverse_cons, List.append_assoc, List.singleton_append]
          · rw [List.map_cons, List.flatten_cons, List.append_assoc]
        · cases read
      · rintro ⟨added, rfl, length, fitting, rfl⟩
        obtain ⟨first, others, rfl⟩ := List.exists_cons_of_length_eq_add_one length
        obtain ⟨fit, fitting⟩ := List.forall_mem_cons.1 fitting
        rw [List.map_cons, List.flatten_cons, List.append_assoc, exact.2 ⟨fit, rfl⟩]
        refine ih.2 ⟨others, ?_, Nat.succ.inj length, fitting, rfl⟩
        rw [List.reverse_cons, List.append_assoc, List.singleton_append]

/-- Items of which each takes exactly its bytes take exactly their bytes in a row. -/
theorem many_eq_ok_iff
    (exact : ∀ {bytes value rest}, item bytes = .ok (value, rest) ↔
      fits value ∧ bytes = encode value ++ rest)
    {count : Nat} {values : List α} {bytes rest : Bytes} :
    many item count bytes = .ok (values, rest) ↔
      values.length = count ∧ (∀ value ∈ values, fits value) ∧
        bytes = (values.map encode).flatten ++ rest := by
  rw [many, manyAfter_eq_ok_iff exact]
  constructor
  · rintro ⟨added, rfl, taken⟩
    exact taken
  · exact fun taken => ⟨values, rfl, taken⟩

end Many

variable [OfIoError ε]

theorem take_eq_ok_iff {count : Nat} {bytes taken rest : Bytes} :
    (take count : Decoder ε Bytes) bytes = .ok (taken, rest) ↔
      taken.length = count ∧ bytes = taken ++ rest := by
  constructor
  · intro read
    rw [take] at read
    split at read
    · cases read
      exact ⟨‹_›, (List.take_append_drop count bytes).symm⟩
    · cases read
  · rintro ⟨rfl, rfl⟩
    exact take_append taken rest

theorem little_eq_ok_iff {width value : Nat} {bytes rest : Bytes} :
    (little width : Decoder ε Nat) bytes = .ok (value, rest) ↔
      value < Bytes.limit width ∧ bytes = Bytes.littleEndian width value ++ rest := by
  constructor
  · intro read
    obtain ⟨taken, took, rfl⟩ := map_eq_ok_iff.1 read
    obtain ⟨rfl, rfl⟩ := take_eq_ok_iff.1 took
    rw [Bytes.littleEndian_ofLittleEndian]
    exact ⟨Bytes.ofLittleEndian_lt_limit taken, rfl⟩
  · rintro ⟨fits, rfl⟩
    exact Reads.little fits rest

theorem big_eq_ok_iff {width value : Nat} {bytes rest : Bytes} :
    (big width : Decoder ε Nat) bytes = .ok (value, rest) ↔
      value < Bytes.limit width ∧ bytes = Bytes.bigEndian width value ++ rest := by
  constructor
  · intro read
    obtain ⟨taken, took, rfl⟩ := map_eq_ok_iff.1 read
    obtain ⟨rfl, rfl⟩ := take_eq_ok_iff.1 took
    rw [Bytes.bigEndian_ofBigEndian]
    exact ⟨Bytes.ofBigEndian_lt_limit taken, rfl⟩
  · rintro ⟨fits, rfl⟩
    exact Reads.big fits rest

theorem word8_eq_ok_iff {value : UInt8} {bytes rest : Bytes} :
    (word8 : Decoder ε UInt8) bytes = .ok (value, rest) ↔ bytes = value :: rest := by
  constructor
  · intro read
    obtain ⟨number, took, rfl⟩ := map_eq_ok_iff.1 read
    exact (little_eq_ok_iff.1 took).2
  · rintro rfl
    exact Reads.word8 value rest

theorem word32_eq_ok_iff {value : UInt32} {bytes rest : Bytes} :
    (word32 : Decoder ε UInt32) bytes = .ok (value, rest) ↔ bytes = Bytes.word32 value ++ rest := by
  constructor
  · intro read
    obtain ⟨number, took, rfl⟩ := map_eq_ok_iff.1 read
    obtain ⟨fits, rfl⟩ := little_eq_ok_iff.1 took
    rw [Bytes.word32, UInt32.toNat_ofNat_of_lt' fits]
  · rintro rfl
    exact Reads.word32 value rest

theorem word64_eq_ok_iff {value : UInt64} {bytes rest : Bytes} :
    (word64 : Decoder ε UInt64) bytes = .ok (value, rest) ↔ bytes = Bytes.word64 value ++ rest := by
  constructor
  · intro read
    obtain ⟨number, took, rfl⟩ := map_eq_ok_iff.1 read
    obtain ⟨fits, rfl⟩ := little_eq_ok_iff.1 took
    rw [Bytes.word64, UInt64.toNat_ofNat_of_lt' fits]
  · rintro rfl
    exact Reads.word64 value rest

end SortedTable.Decoder

import SortedTable.Filter.Stored
import SortedTable.Proofs.Filter.Bits

namespace SortedTable.Bloom

/-- The number of the bit that a hash function gives to a key. -/
def probe (capacity : Nat) (hash : Murmur.Words) (function : Nat) : Nat :=
  (hash.first.toNat + function * hash.second.toNat) % 2 ^ 64 % capacity

theorem toNat_position (bits : Bits) (hash : Murmur.Words) (function : UInt64) :
    (position bits.capacity hash function).toNat =
      probe (64 * bits.words.size) hash function.toNat := by
  rw [position, probe, UInt64.toNat_mod, bits.toNat_capacity, UInt64.toNat_add,
    UInt64.toNat_mul, Nat.add_mod_mod]

theorem probe_lt (bits : Bits) (hash : Murmur.Words) (function : Nat) :
    probe (64 * bits.words.size) hash function < 64 * bits.words.size :=
  Nat.mod_lt _ (Nat.mul_pos (by decide) bits.positive)

theorem wordIndex_position (bits : Bits) (hash : Murmur.Words) (function : UInt64) :
    Bits.wordIndex (position bits.capacity hash function) < bits.words.size := by
  have inside := probe_lt bits hash function.toNat
  rw [Bits.wordIndex_eq, toNat_position]
  omega

theorem size_setFrom (hash : Murmur.Words) (count : Nat) (function : UInt64) (bits : Bits) :
    (setFrom hash count function bits).words.size = bits.words.size := by
  induction count generalizing function bits with
  | zero => rfl
  | succ count ih => rw [setFrom, ih, Bits.size_set]

/-- Sets the bits of consecutive hash functions and no other. -/
theorem testBit_setFrom (hash : Murmur.Words) (count : Nat) (function : UInt64) (bits : Bits)
    (number : Nat) (short : function.toNat + count < 2 ^ 64) :
    (setFrom hash count function bits).testBit number = true ↔
      bits.testBit number = true ∨
        ∃ step < count, probe (64 * bits.words.size) hash (function.toNat + step) = number := by
  induction count generalizing function bits with
  | zero => simp [setFrom]
  | succ count ih =>
      have next : (function + 1).toNat = function.toNat + 1 := by
        rw [UInt64.toNat_add, UInt64.toNat_one, Nat.mod_eq_of_lt (by omega)]
      have inside := probe_lt bits hash function.toNat
      rw [← toNat_position] at inside
      rw [setFrom, ih _ _ (by omega), Bits.testBit_set inside, Bits.size_set, toNat_position, next,
        Nat.exists_lt_succ_left]
      simp only [Bool.or_eq_true, decide_eq_true_eq, Nat.add_zero, Nat.add_assoc, Nat.add_comm 1,
        or_assoc]

theorem testFrom_iff (hash : Murmur.Words) (bits : Bits) (count : Nat) (function : UInt64)
    (short : function.toNat + count < 2 ^ 64) :
    testFrom hash bits count function = true ↔
      ∀ step < count,
        bits.testBit (probe (64 * bits.words.size) hash (function.toNat + step)) = true := by
  induction count generalizing function with
  | zero => simp [testFrom]
  | succ count ih =>
      have next : (function + 1).toNat = function.toNat + 1 := by
        rw [UInt64.toNat_add, UInt64.toNat_one, Nat.mod_eq_of_lt (by omega)]
      rw [testFrom, Bool.and_eq_true, ih _ (by omega), Bits.get_eq_testBit, toNat_position, next,
        Nat.forall_lt_succ_left]
      simp only [Nat.add_zero, Nat.add_assoc, Nat.add_comm 1]

theorem size_add (bloom : Bloom) (hash : Murmur.Words) :
    (bloom.add hash).bits.words.size = bloom.bits.words.size :=
  size_setFrom ..

/-- Every hash function has a number below the limit of its word. -/
theorem hashCount_lt (bloom : Bloom) : (0 : UInt64).toNat + bloom.hashCount.toNat < 2 ^ 64 := by
  have small := bloom.hashCount.toNat_lt
  rw [UInt64.toNat_zero]
  omega

/-- Adding a key sets the bits that the hash functions give to it. -/
theorem testBit_add (bloom : Bloom) (hash : Murmur.Words) (number : Nat) :
    (bloom.add hash).bits.testBit number = true ↔
      bloom.bits.testBit number = true ∨
        ∃ function < bloom.hashCount.toNat,
          probe (64 * bloom.bits.words.size) hash function = number := by
  have set := testBit_setFrom hash bloom.hashCount.toNat 0 bloom.bits number bloom.hashCount_lt
  simp only [UInt64.toNat_zero, Nat.zero_add] at set
  exact set

/-- A key is admitted when all of its bits are set. -/
theorem isPresent_iff (bloom : Bloom) (hash : Murmur.Words) :
    bloom.isPresent hash = true ↔
      ∀ function < bloom.hashCount.toNat,
        bloom.bits.testBit (probe (64 * bloom.bits.words.size) hash function) = true := by
  have tested := testFrom_iff hash bloom.bits bloom.hashCount.toNat 0 bloom.hashCount_lt
  simp only [UInt64.toNat_zero, Nat.zero_add] at tested
  exact tested

theorem isPresent_add_self (bloom : Bloom) (hash : Murmur.Words) :
    (bloom.add hash).isPresent hash = true := by
  rw [isPresent_iff]
  intro function below
  rw [testBit_add, size_add]
  exact .inr ⟨function, below, rfl⟩

theorem isPresent_add_of_isPresent {bloom : Bloom} {hash : Murmur.Words} (other : Murmur.Words)
    (held : bloom.isPresent hash = true) : (bloom.add other).isPresent hash = true := by
  rw [isPresent_iff] at held ⊢
  intro function below
  rw [testBit_add, size_add]
  exact .inl (held function below)

section AddAll

variable (bloom : Bloom) (hashes : List Murmur.Words)

theorem hashCount_foldl_add : (hashes.foldl add bloom).hashCount = bloom.hashCount := by
  induction hashes generalizing bloom with
  | nil => rfl
  | cons hash rest ih => exact ih (bloom.add hash)

theorem size_foldl_add :
    (hashes.foldl add bloom).bits.words.size = bloom.bits.words.size := by
  induction hashes generalizing bloom with
  | nil => rfl
  | cons hash rest ih => rw [List.foldl_cons, ih, size_add]

/-- Adding keys one after another sets the bits of all of them. -/
theorem testBit_foldl_add (number : Nat) :
    (hashes.foldl add bloom).bits.testBit number = true ↔
      bloom.bits.testBit number = true ∨
        ∃ hash ∈ hashes, ∃ function < bloom.hashCount.toNat,
          probe (64 * bloom.bits.words.size) hash function = number := by
  induction hashes generalizing bloom with
  | nil => simp
  | cons hash rest ih =>
      rw [List.foldl_cons, ih, testBit_add, size_add, or_assoc]
      simp only [List.mem_cons, exists_eq_or_imp]
      rfl

end AddAll

/-- Filters of one size with one number of hash functions are the same when their bits are. -/
theorem ext_testBit {bloom other : Bloom} (hashCount : bloom.hashCount = other.hashCount)
    (size : bloom.bits.words.size = other.bits.words.size)
    (same : ∀ number, bloom.bits.testBit number = true ↔ other.bits.testBit number = true) :
    bloom = other := by
  have bits : bloom.bits = other.bits :=
    Bits.ext_testBit size fun number _ => Bool.eq_iff_iff.2 (same number)
  cases bloom
  cases other
  cases hashCount
  cases bits
  rfl

/-- Only the set of the keys that are added counts. -/
theorem foldl_add_congr (bloom : Bloom) {hashes other : List Murmur.Words}
    (same : ∀ hash, hash ∈ hashes ↔ hash ∈ other) :
    hashes.foldl add bloom = other.foldl add bloom := by
  apply ext_testBit
  · rw [hashCount_foldl_add, hashCount_foldl_add]
  · rw [size_foldl_add, size_foldl_add]
  · simp only [testBit_foldl_add, same, implies_true]

/-- A filter has just the bits that the hash functions give to these keys, and admits what they
cover. -/
structure Holds (bloom : Bloom) (hashCount : UInt32) (words : Nat) (hashes : List Murmur.Words) :
    Prop where
  functions : bloom.hashCount = hashCount
  size : bloom.bits.words.size = words
  get_iff : ∀ index : UInt64, index.toNat < 64 * words →
    (bloom.bits.get index = true ↔
      ∃ hash ∈ hashes, ∃ function < hashCount.toNat,
        probe (64 * words) hash function = index.toNat)
  admits : ∀ hash ∈ hashes, bloom.isPresent hash = true
  isPresent_iff : ∀ hash, bloom.isPresent hash = true ↔
    ∀ function < hashCount.toNat, ∃ added ∈ hashes, ∃ other < hashCount.toNat,
      probe (64 * words) added other = probe (64 * words) hash function
  inside : ∀ hash function,
    Bits.wordIndex (position bloom.bits.capacity hash function) < words

/-- A filter has the size that it was made with, and none of its bits is set. -/
theorem withParameters_eq_ok {hashCount : UInt32} {words : UInt64} (hashing : 0 < hashCount)
    (positive : 0 < words.toNat) (bounded : words.toNat ≤ maxFilterWords) :
    withParameters hashCount words =
      .ok ⟨hashCount, .zero words.toNat positive bounded, hashing⟩ := by
  rw [withParameters, dif_pos hashing, dif_pos positive, dif_pos bounded]

theorem holds_foldl_add {hashCount : UInt32} {words : Nat} (hashing : 0 < hashCount)
    (positive : 0 < words) (bounded : words ≤ maxFilterWords) (hashes : List Murmur.Words) :
    (hashes.foldl add ⟨hashCount, .zero words positive bounded, hashing⟩).Holds hashCount words
      hashes := by
  let fresh : Bloom := ⟨hashCount, .zero words positive bounded, hashing⟩
  have fresh_size : fresh.bits.words.size = words := Array.size_replicate
  have kept := hashCount_foldl_add fresh hashes
  have size : (hashes.foldl add fresh).bits.words.size = words := by
    rw [size_foldl_add, fresh_size]
  -- A fresh filter has no bits of its own.
  have set (number : Nat) : (hashes.foldl add fresh).bits.testBit number = true ↔
      ∃ hash ∈ hashes, ∃ function < hashCount.toNat,
        probe (64 * words) hash function = number := by
    rw [testBit_foldl_add, Bits.testBit_zero, fresh_size]
    simp only [Bool.false_eq_true, false_or]
    rfl
  have present (hash : Murmur.Words) : (hashes.foldl add fresh).isPresent hash = true ↔
      ∀ function < hashCount.toNat, ∃ added ∈ hashes, ∃ other < hashCount.toNat,
        probe (64 * words) added other = probe (64 * words) hash function := by
    simp only [isPresent_iff, size, kept, set]
    rfl
  exact {
    functions := kept
    size
    get_iff := fun index _ => by rw [Bits.get_eq_testBit, set]
    admits := fun hash member => (present hash).2 fun function below =>
      ⟨hash, member, function, below, rfl⟩
    isPresent_iff := present
    inside := fun hash function => (wordIndex_position _ hash function).trans_eq size }

/-- A fresh filter holds exactly the keys that are added to it, in any order and however often. -/
theorem withParameters_foldl_add {hashCount : UInt32} {words : UInt64} (hashing : 0 < hashCount)
    (positive : 0 < words.toNat) (bounded : words.toNat ≤ maxFilterWords) :
    ∃ fresh, withParameters hashCount words = .ok fresh ∧
      (∀ hashes : List Murmur.Words, (hashes.foldl add fresh).Holds hashCount words.toNat hashes) ∧
      ∀ hashes other : List Murmur.Words, (∀ hash, hash ∈ hashes ↔ hash ∈ other) →
        (hashes.foldl add fresh).bits.words = (other.foldl add fresh).bits.words ∧
          ∀ format, (hashes.foldl add fresh).store format = (other.foldl add fresh).store format := by
  refine ⟨_, withParameters_eq_ok hashing positive bounded,
    holds_foldl_add hashing positive bounded, ?_⟩
  intro hashes other same
  rw [foldl_add_congr _ same]
  exact ⟨rfl, fun _ => rfl⟩

/-- Two keys in two words with three hash functions, the second of them added twice. -/
theorem withParameters_foldl_add_pair :
    0 < (3 : UInt32) ∧ 0 < (2 : UInt64).toNat ∧ (2 : UInt64).toNat ≤ maxFilterWords ∧
      ∃ fresh, withParameters 3 2 = .ok fresh ∧
        ([⟨5, 64⟩, ⟨7, 1⟩, ⟨7, 1⟩].foldl add fresh).Holds 3 2 [⟨5, 64⟩, ⟨7, 1⟩, ⟨7, 1⟩] ∧
        ([⟨5, 64⟩, ⟨7, 1⟩, ⟨7, 1⟩].foldl add fresh).bits.words = #[928, 32] ∧
        ([⟨7, 1⟩, ⟨5, 64⟩].foldl add fresh).bits.words = #[928, 32] := by
  obtain ⟨fresh, made, holds, same⟩ := withParameters_foldl_add (show 0 < (3 : UInt32) by decide)
    (show 0 < (2 : UInt64).toNat by decide) (by decide)
  have words := (same [⟨5, 64⟩, ⟨7, 1⟩, ⟨7, 1⟩] [⟨7, 1⟩, ⟨5, 64⟩] (by simp [or_comm])).1
  cases made
  exact ⟨by decide, by decide, by decide, _, rfl, holds _, by decide, words ▸ by decide⟩

end SortedTable.Bloom

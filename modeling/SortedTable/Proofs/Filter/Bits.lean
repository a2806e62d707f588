import Mathlib.Data.Nat.Bitwise
import SortedTable.Filter.Bits

namespace SortedTable.Bits

/-- The bit of a number. The words follow one another, each from its lowest bit on. -/
def testBit (bits : Bits) (number : Nat) : Bool :=
  (bits.words.getD (number / 64) 0).toNat.testBit (number % 64)

theorem wordIndex_eq (index : UInt64) : wordIndex index = index.toNat / 64 := by
  rw [wordIndex, UInt64.toNat_shiftRight]
  exact Nat.shiftRight_eq_div_pow index.toNat 6

theorem toNat_mask (index : UInt64) : (mask index).toNat = 2 ^ (index.toNat % 64) := by
  have place : (index &&& 63).toNat = index.toNat % 64 := by
    rw [UInt64.toNat_and]
    exact Nat.and_two_pow_sub_one_eq_mod index.toNat 6
  have small : index.toNat % 64 < 64 := Nat.mod_lt _ (by decide)
  rw [mask, UInt64.toNat_shiftLeft, place, Nat.mod_eq_of_lt small, UInt64.toNat_one,
    Nat.one_shiftLeft, Nat.mod_eq_of_lt (Nat.pow_lt_pow_right (by decide) small)]

theorem toNat_capacity (bits : Bits) : bits.capacity.toNat = 64 * bits.words.size := by
  have bounded := bits.bounded
  have few : maxFilterWords = 16777216 := rfl
  rw [capacity, UInt64.toNat_mul, UInt64.toNat_ofNat']
  change 64 * (bits.words.size % 2 ^ 64) % 2 ^ 64 = _
  omega

/-- A bit is got through its word and its mask. -/
theorem get_eq_testBit (bits : Bits) (index : UInt64) :
    bits.get index = bits.testBit index.toNat := by
  rw [get, testBit, wordIndex_eq, Bool.eq_iff_iff, bne_iff_ne, ne_eq, ← UInt64.toNat_inj,
    UInt64.toNat_and, toNat_mask, Nat.and_two_pow, UInt64.toNat_zero]
  cases Nat.testBit _ _ <;> simp

theorem testBit_zero (count : Nat) (positive : 0 < count) (bounded : count ≤ maxFilterWords)
    (number : Nat) : (zero count positive bounded).testBit number = false := by
  rw [testBit, zero, Array.getD_eq_getD_getElem?, Array.getElem?_replicate]
  split <;> exact Nat.zero_testBit _

/-- Setting a bit sets that one and no other. -/
theorem testBit_set {bits : Bits} {index : UInt64} (inside : index.toNat < 64 * bits.words.size)
    (number : Nat) :
    (bits.set index).testBit number = (bits.testBit number || decide (index.toNat = number)) := by
  have changed : (bits.set index).words =
      bits.words.modify (index.toNat / 64) (· ||| mask index) := by
    rw [← wordIndex_eq]
    rfl
  rw [testBit, testBit, changed, Array.getD_eq_getD_getElem?, Array.getElem?_modify,
    Array.getD_eq_getD_getElem?]
  by_cases same : index.toNat / 64 = number / 64
  · have found : number / 64 < bits.words.size := by omega
    rw [if_pos same, Array.getElem?_eq_getElem found, Option.map_some, Option.getD_some,
      Option.getD_some, UInt64.toNat_or, Nat.testBit_or, toNat_mask, Nat.testBit_two_pow]
    congr 1
    rw [decide_eq_decide]
    omega
  · have differs : index.toNat ≠ number := by
      rintro rfl
      exact same rfl
    rw [if_neg same, decide_eq_false differs, Bool.or_false]

/-- Arrays of one size with the same bits are the same. -/
theorem ext_testBit {bits other : Bits} (size : bits.words.size = other.words.size)
    (same : ∀ number < 64 * bits.words.size, bits.testBit number = other.testBit number) :
    bits = other := by
  have words : bits.words = other.words := by
    refine Array.ext size fun place inside inside' => UInt64.toNat_inj.1 ?_
    apply Nat.eq_of_testBit_eq
    intro low
    by_cases within : low < 64
    · have equal := same (64 * place + low) (by omega)
      have quotient : (64 * place + low) / 64 = place := by omega
      have remainder : (64 * place + low) % 64 = low := by omega
      rw [testBit, testBit, quotient, remainder, Array.getD_eq_getD_getElem?,
        Array.getD_eq_getD_getElem?, Array.getElem?_eq_getElem inside,
        Array.getElem?_eq_getElem inside'] at equal
      exact equal
    · have high (word : UInt64) : word.toNat.testBit low = false :=
        Nat.testBit_lt_two_pow (Nat.lt_of_lt_of_le word.toNat_lt
          (Nat.pow_le_pow_right (by decide) (Nat.not_lt.1 within)))
      rw [high, high]
  cases bits
  cases other
  cases words
  rfl

end SortedTable.Bits

import Mathlib.Data.Nat.Bitwise
import Mathlib.Logic.Function.Iterate
import SortedTable.Hash.Checksum
import SortedTable.Proofs.Bytes

namespace SortedTable

namespace Checksum

theorem and_one_eq_one_iff (register : UInt32) :
    register &&& 1 = 1 ↔ register.toNat % 2 = 1 := by
  rw [← UInt32.toNat_inj, UInt32.toNat_and, UInt32.toNat_one, Nat.and_one_is_mod]

theorem toNat_shiftRight_one (register : UInt32) : (register >>> 1).toNat = register.toNat / 2 := by
  rw [UInt32.toNat_shiftRight]
  exact Nat.shiftRight_eq_div_pow register.toNat 1

theorem shift_xor (left right : UInt32) : shift (left ^^^ right) = shift left ^^^ shift right := by
  simp only [shift, and_one_eq_one_iff, UInt32.toNat_xor, Nat.xor_mod_two_eq_one,
    UInt32.shiftRight_xor]
  by_cases oddLeft : left.toNat % 2 = 1 <;> by_cases oddRight : right.toNat % 2 = 1
  · simp only [oddLeft, oddRight, not_true_eq_false, if_true, if_false]
    rw [UInt32.xor_assoc, UInt32.xor_comm polynomial, UInt32.xor_assoc, UInt32.xor_self,
      UInt32.xor_zero]
  · simp only [oddLeft, oddRight, iff_false, not_true_eq_false, not_false_eq_true, if_true, if_false]
    rw [UInt32.xor_assoc, UInt32.xor_assoc, UInt32.xor_comm polynomial]
  · simp only [oddLeft, oddRight, iff_true, not_false_eq_true, if_true, if_false]
    rw [UInt32.xor_assoc]
  · simp only [oddLeft, oddRight, not_true_eq_false, if_false]

/-- A shift empties only the empty register, as the polynomial has the highest bit. -/
theorem eq_zero_of_shift_eq_zero {register : UInt32} (empty : shift register = 0) :
    register = 0 := by
  have half := toNat_shiftRight_one register
  have small := register.toNat_lt
  have high : polynomial.toNat = 0xEDB88320 := rfl
  unfold shift at empty
  split at empty
  · have same := congrArg UInt32.toNat (UInt32.xor_eq_zero_iff.1 empty)
    omega
  · rename_i even
    rw [and_one_eq_one_iff] at even
    have none := congrArg UInt32.toNat empty
    rw [half, UInt32.toNat_zero] at none
    apply UInt32.toNat_inj.1
    rw [UInt32.toNat_zero]
    omega

theorem shift_injective : Function.Injective shift := by
  intro left right same
  apply UInt32.xor_eq_zero_iff.1
  apply eq_zero_of_shift_eq_zero
  rw [shift_xor, same, UInt32.xor_self]

theorem iterate_shift_xor (count : Nat) (left right : UInt32) :
    shift^[count] (left ^^^ right) = shift^[count] left ^^^ shift^[count] right := by
  induction count generalizing left right with
  | zero => rfl
  | succ count ih => rw [Function.iterate_succ_apply, shift_xor, ih]; rfl

/-- Zeros in the low places are shifted out. -/
theorem iterate_shift_mul {count value : Nat} (fits : 2 ^ count * value < 2 ^ 32) :
    shift^[count] (UInt32.ofNat (2 ^ count * value)) = UInt32.ofNat value := by
  induction count with
  | zero => simp
  | succ count ih =>
      have double : 2 ^ (count + 1) * value = 2 * (2 ^ count * value) := by
        rw [Nat.pow_succ]
        ac_rfl
      rw [double] at fits ⊢
      generalize 2 ^ count * value = rest at fits ih ⊢
      have even : (UInt32.ofNat (2 * rest)).toNat = 2 * rest := UInt32.toNat_ofNat_of_lt' fits
      have once : shift (UInt32.ofNat (2 * rest)) = UInt32.ofNat rest := by
        rw [shift, if_neg (by rw [and_one_eq_one_iff, even]; omega)]
        apply UInt32.toNat_inj.1
        rw [toNat_shiftRight_one, even, UInt32.toNat_ofNat']
        omega
      rw [Function.iterate_succ_apply, once, ih (by omega)]

/-- A byte in front of a number is added to its multiple without a carry. -/
theorem toUInt32_xor_ofNat (byte : UInt8) (value : Nat) :
    byte.toUInt32 ^^^ UInt32.ofNat (2 ^ 8 * value) = UInt32.ofNat (byte.toNat + 256 * value) := by
  have apart : byte.toNat ^^^ 2 ^ 8 * value = byte.toNat + 256 * value := by
    have small : byte.toNat < 2 ^ 8 := byte.toNat_lt
    apply Nat.eq_of_testBit_eq
    intro place
    rw [Nat.add_comm, Nat.testBit_xor, Nat.testBit_two_pow_mul, Nat.testBit_two_pow_mul_add value small]
    by_cases low : place < 8
    · simp [low, Nat.not_le.2 low]
    · have high : 8 ≤ place := Nat.le_of_not_lt low
      have beyond : byte.toNat < 2 ^ place :=
        Nat.lt_of_lt_of_le small (Nat.pow_le_pow_right (by decide) high)
      simp [low, high, Nat.testBit_lt_two_pow beyond]
  rw [← apart, UInt32.ofNat_xor, UInt32.ofNat_uInt8ToNat]

/-- Up to four bytes are fed at once as the number that they spell. -/
theorem foldl_feed (register : UInt32) {window : Bytes} (short : window.length ≤ 4) :
    window.foldl feed register =
      shift^[8 * window.length] (register ^^^ UInt32.ofNat (Bytes.ofLittleEndian window)) := by
  induction window generalizing register with
  | nil => simp [Bytes.ofLittleEndian]
  | cons byte rest ih =>
      rw [List.length_cons] at short
      have bound : Bytes.ofLittleEndian rest < 2 ^ (8 * 3) := Bytes.ofLittleEndian_lt (by omega)
      have fits : 2 ^ 8 * Bytes.ofLittleEndian rest < 2 ^ 32 := by omega
      have later : UInt32.ofNat (Bytes.ofLittleEndian rest) =
          shift^[8] (UInt32.ofNat (2 ^ 8 * Bytes.ofLittleEndian rest)) := (iterate_shift_mul fits).symm
      calc (byte :: rest).foldl feed register
        _ = shift^[8 * rest.length]
              (feed register byte ^^^ UInt32.ofNat (Bytes.ofLittleEndian rest)) := by
            rw [List.foldl_cons, ih _ (by omega)]
        _ = shift^[8 * rest.length] (shift^[8] ((register ^^^ byte.toUInt32) ^^^
              UInt32.ofNat (2 ^ 8 * Bytes.ofLittleEndian rest))) := by
            rw [iterate_shift_xor 8, ← later]
            rfl
        _ = shift^[8 * (rest.length + 1)]
              (register ^^^ UInt32.ofNat (Bytes.ofLittleEndian (byte :: rest))) := by
            rw [UInt32.xor_assoc, toUInt32_xor_ofNat, ← Function.iterate_add_apply]
            rfl

theorem foldl_feed_injective (bytes : Bytes) :
    Function.Injective fun register => bytes.foldl feed register := by
  induction bytes with
  | nil => exact fun _ _ same => same
  | cons byte rest ih =>
      intro left right same
      have fed : feed left byte = feed right byte := ih same
      exact (UInt32.xor_left_inj _).1 (shift_injective.iterate 8 fed)

/-- Other bytes in a window of up to four bring the register to another state. -/
theorem foldl_feed_ne (register : UInt32) {old new : Bytes} (size : new.length = old.length)
    (short : new.length ≤ 4) (differ : new ≠ old) :
    new.foldl feed register ≠ old.foldl feed register := by
  intro same
  rw [foldl_feed register short, foldl_feed register (size ▸ short), size] at same
  have numbers := (UInt32.xor_right_inj _).1 (shift_injective.iterate _ same)
  have values := congrArg UInt32.toNat numbers
  rw [UInt32.toNat_ofNat_of_lt' (Bytes.ofLittleEndian_lt short),
    UInt32.toNat_ofNat_of_lt' (Bytes.ofLittleEndian_lt (size ▸ short))] at values
  apply differ
  rw [← Bytes.littleEndian_ofLittleEndian new, ← Bytes.littleEndian_ofLittleEndian old, values, size]

/-- A change within four bytes in a row changes the checksum. -/
theorem crc32_ne {bytes changed : Bytes} (change : Bytes.ChangedWithin 4 bytes changed) :
    crc32 changed ≠ crc32 bytes := by
  obtain ⟨front, old, new, back, rfl, rfl, size, short, differ⟩ := change
  intro same
  have ends := (UInt32.xor_left_inj _).1 same
  simp only [List.foldl_append] at ends
  exact foldl_feed_ne _ size short differ (foldl_feed_injective back ends)

end Checksum

end SortedTable

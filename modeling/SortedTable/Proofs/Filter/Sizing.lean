import Mathlib.Data.Nat.Bitwise
import SortedTable.Filter.Basic
import SortedTable.Proofs.Outcome

namespace SortedTable

open Float.Model Float.Model.UnpackedFloat

/-- The digits of a double fit its width. -/
theorem mantissa_lt_of_unpack {value : Float.Model} {sign : Sign} {mantissa : Nat} {exponent : Int}
    {positive : 0 < mantissa} (same : value.unpack = .finite sign mantissa exponent positive) :
    mantissa < 2 ^ 53 := by
  let bits := value.toBits.toBitVec
  have small := (@unpackMantissa Format.binary64 bits).isLt
  have small' := (1#1 ++ @unpackMantissa Format.binary64 bits).isLt
  change ite (@unpackExponent Format.binary64 bits = _) (ite _ _ _) (ite _ (dite _ _ _) _) = _ at same
  by_cases special : @unpackExponent Format.binary64 bits = -1#_
  · rw [if_pos special] at same
    by_cases empty : @unpackMantissa Format.binary64 bits = 0#_
    · rw [if_pos empty] at same
      cases same
    · rw [if_neg empty] at same
      cases same
  · rw [if_neg special] at same
    by_cases least : @unpackExponent Format.binary64 bits = 0#_
    · rw [if_pos least] at same
      by_cases empty : @unpackMantissa Format.binary64 bits = 0#_
      · rw [dif_pos empty] at same
        cases same
      · rw [dif_neg empty] at same
        cases same
        exact Nat.lt_trans small (by decide)
    · rw [if_neg least] at same
      cases same
      exact small'

theorem mantissa_shiftRight (extended : ExtendedMantissa) (count : Nat) :
    (extended >>> count).mantissa = extended.mantissa / 2 ^ count := by
  induction count with
  | zero => simp [HShiftRight.hShiftRight, Nat.repeat]
  | succ count ih =>
      change (extended >>> count).mantissa / 2 = _
      rw [ih, Nat.div_div_eq_div_mul, Nat.pow_succ]

/-- Below one, the whole part is what is left of the digits after a shift. -/
theorem roundToInt_of_neg {mantissa : Nat} {exponent : Int} (below : exponent < 0) :
    roundToInt .positive mantissa exponent = ((mantissa / 2 ^ (-exponent).toNat : Nat) : Int) := by
  have whole : (exponent - 0).toNat = 0 := by omega
  have shifted : (0 - (exponent - (0 : Nat))).toNat = (-exponent).toNat := by omega
  unfold roundToInt decreaseExponent shiftToExponent
  dsimp only
  rw [whole, Nat.shiftLeft_zero, shifted, mantissa_shiftRight]
  rfl

theorem roundToInt_negative_le {mantissa : Nat} {exponent : Int} :
    roundToInt .negative mantissa exponent ≤ 0 := by
  change -(((_ : ExtendedMantissa).mantissa : Nat) : Int) ≤ 0
  omega

/-- A double that another one is not below has a lower exponent, or the same one and no more digits. -/
theorem ordered_of_not_lt {left right : Nat} {low high : Int} {positive : 0 < left}
    {positive' : 0 < right}
    (notAbove : ¬(UnpackedFloat.finite .positive left low positive).lt
      (.finite .positive right high positive') = true) :
    high < low ∨ high = low ∧ right ≤ left := by
  have compared : (compare low high).then (compare left right) ≠ .lt := by
    intro less
    apply notAbove
    change (some ((compare low high).then (compare left right)) == some Ordering.lt) = true
    rw [less]
    rfl
  rcases Int.lt_trichotomy high low with lower | rfl | higher
  · exact .inl lower
  · have equal : compare high high = .eq := Std.ReflCmp.compare_self
    refine .inr ⟨rfl, Nat.le_of_not_lt fun above => compared ?_⟩
    rw [equal, Nat.compare_eq_lt.2 above]
    rfl
  · refine absurd ?_ compared
    rw [Int.compare_eq_lt.2 higher]
    rfl

/-- What is not above twenty has a whole part of at most twenty. -/
theorem roundToInt_le_twenty {mantissa : Nat} {exponent : Int} (small : mantissa < 2 ^ 53)
    (ordered : exponent < -48 ∨ exponent = -48 ∧ mantissa ≤ 5 * 2 ^ 50) :
    (roundToInt .positive mantissa exponent).toNat ≤ 20 := by
  rw [roundToInt_of_neg (by omega), Int.toNat_natCast]
  rcases ordered with lower | ⟨rfl, digits⟩
  · have shift : 49 ≤ (-exponent).toNat := by omega
    have divisor : 2 ^ 49 ≤ 2 ^ (-exponent).toNat := Nat.pow_le_pow_right (by decide) shift
    have quotient := Nat.div_le_div_left divisor (by decide) (a := mantissa)
    omega
  · change mantissa / 2 ^ 48 ≤ 20
    omega

namespace Bloom

theorem unpack_maxHashCount : maxHashCount.toFloat.toModel.unpack =
    .finite .positive (5 * 2 ^ 50) (-48) (by decide) := rfl

/-- A double that is not above the greatest number of hash functions is no greater as a word. -/
theorem toUInt32_le_of_not_lt {count : Float} (notAbove : ¬maxHashCount.toFloat < count) :
    count.toUInt32 ≤ maxHashCount := by
  have compared : ¬(maxHashCount.toFloat.toModel.unpack.lt count.toModel.unpack = true) :=
    fun less => notAbove (decide_eq_true (p := maxHashCount.toFloat.toModel < count.toModel) less)
  rw [unpack_maxHashCount] at compared
  change UInt32.ofNatClamp (count.toModel.unpack.toInt 0 (UInt32.size - 1)).toNat ≤ _
  have clamped {value : Nat} (small : value ≤ 20) : UInt32.ofNatClamp value ≤ maxHashCount := by
    have fits : value < UInt32.size := by
      have : UInt32.size = 4294967296 := rfl
      omega
    rw [UInt32.ofNatClamp, dif_pos fits, UInt32.le_iff_toNat_le]
    exact small
  cases form : count.toModel.unpack with
  | notANumber => exact clamped (by decide)
  | zero sign => exact clamped (Nat.zero_le _)
  | infinity sign =>
      cases sign with
      | negative => exact clamped (by decide)
      | positive =>
          rw [form] at compared
          exact absurd rfl compared
  | finite sign mantissa exponent positive =>
      apply clamped
      change (roundToInt sign mantissa exponent).toNat ≤ 20
      cases sign with
      | negative =>
          have below := @roundToInt_negative_le mantissa exponent
          omega
      | positive =>
          rw [form] at compared
          exact roundToInt_le_twenty (mantissa_lt_of_unpack form) (ordered_of_not_lt compared)

/-- The number of hash functions is at most the greatest one, whatever the doubles give. -/
theorem hashCountFor_le (elements words : UInt64) :
    hashCountFor elements words ≤ maxHashCount := by
  unfold hashCountFor
  dsimp only
  split
  · exact toUInt32_le_of_not_lt (by decide)
  · rename_i notAbove
    exact toUInt32_le_of_not_lt notAbove

theorem hashCount_of_withParameters {hashCount : UInt32} {words : UInt64} {bloom : Bloom}
    (built : withParameters hashCount words = .ok bloom) : bloom.hashCount = hashCount := by
  unfold withParameters at built
  split at built
  · split at built
    · split at built
      · cases built
        rfl
      · cases built
    · cases built
  · cases built

theorem hashCount_le_of_forElements {elements : UInt64} {chance : Float} {bloom : Bloom}
    (built : forElements elements chance = .ok bloom) : bloom.hashCount ≤ maxHashCount := by
  unfold forElements at built
  split at built
  · cases built
  · split at built
    · dsimp only at built
      split at built
      · cases built
      · rw [hashCount_of_withParameters built]
        exact hashCountFor_le _ _
    · cases built

end Bloom

end SortedTable

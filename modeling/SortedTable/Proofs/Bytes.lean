import Mathlib.Data.Nat.Bitwise
import SortedTable.Bytes

namespace SortedTable.Bytes

theorem limit_eq_two_pow (width : Nat) : limit width = 2 ^ (8 * width) := by
  induction width with
  | zero => rfl
  | succ width ih =>
      rw [limit, ih, Nat.mul_succ, Nat.pow_add]
      omega

theorem ofLittleEndian_lt_limit (bytes : Bytes) : ofLittleEndian bytes < limit bytes.length := by
  induction bytes with
  | nil => exact Nat.one_pos
  | cons byte rest ih =>
      have small := byte.toNat_lt
      simp only [ofLittleEndian, List.length_cons, limit]
      omega

theorem ofLittleEndian_lt {bytes : Bytes} {width : Nat} (short : bytes.length ≤ width) :
    ofLittleEndian bytes < 2 ^ (8 * width) := by
  apply Nat.lt_of_lt_of_le (ofLittleEndian_lt_limit bytes)
  rw [limit_eq_two_pow]
  exact Nat.pow_le_pow_right (by decide) (Nat.mul_le_mul_left 8 short)

theorem littleEndian_ofLittleEndian (bytes : Bytes) :
    littleEndian bytes.length (ofLittleEndian bytes) = bytes := by
  induction bytes with
  | nil => rfl
  | cons byte rest ih =>
      have small := byte.toNat_lt
      have behind : (byte.toNat + 256 * ofLittleEndian rest) / 256 = ofLittleEndian rest := by omega
      have front : UInt8.ofNat (byte.toNat + 256 * ofLittleEndian rest) = byte := by
        apply UInt8.toNat_inj.1
        rw [UInt8.toNat_ofNat']
        omega
      rw [List.length_cons, ofLittleEndian, littleEndian, behind, front, ih]

theorem ofBigEndian_lt_limit (bytes : Bytes) : ofBigEndian bytes < limit bytes.length := by
  rw [ofBigEndian, ← List.length_reverse]
  exact ofLittleEndian_lt_limit bytes.reverse

theorem bigEndian_ofBigEndian (bytes : Bytes) :
    bigEndian bytes.length (ofBigEndian bytes) = bytes := by
  rw [bigEndian, ofBigEndian, ← List.length_reverse, littleEndian_ofLittleEndian,
    List.reverse_reverse]

/-- One byte alone spells a great number in the other order. -/
theorem bigEndian_four_of_lt {value : Nat} (small : value < 256) :
    bigEndian 4 value = littleEndian 4 (2 ^ 24 * value) := by
  have drop (shift : Nat) : UInt8.ofNat (256 * shift) = 0 := by
    apply UInt8.toNat_inj.1
    rw [UInt8.toNat_ofNat', Nat.mul_mod_right]
    rfl
  have up : 2 ^ 24 * value = 256 * (256 * (256 * value)) := by omega
  have below : value / 256 = 0 := Nat.div_eq_of_lt small
  rw [up]
  simp [bigEndian, littleEndian, drop, below]

/-- A cut lies in the first of two parts or behind it. -/
theorem prefix_append_cases {front first second : Bytes} (cut : front <+: first ++ second) :
    front <+: first ∧ front ≠ first ∨ ∃ rest, front = first ++ rest ∧ rest <+: second := by
  by_cases inside : front <+: first ∧ front ≠ first
  · exact .inl inside
  · obtain ⟨rest, rfl⟩ : first <+: front := by
      rcases List.prefix_or_prefix_of_prefix cut (List.prefix_append first second) with below | below
      · exact (not_and_not_right.1 inside below) ▸ List.prefix_rfl
      · exact below
    exact .inr ⟨rest, rfl, (List.prefix_append_right_inj first).1 cut⟩

/-- One or more bytes in a stretch of at most `width` are other ones than before. -/
def ChangedWithin (width : Nat) (bytes changed : Bytes) : Prop :=
  ∃ front old new back, bytes = front ++ (old ++ back) ∧ changed = front ++ (new ++ back) ∧
    new.length = old.length ∧ new.length ≤ width ∧ new ≠ old

theorem ChangedWithin.length_eq {width : Nat} {bytes changed : Bytes}
    (change : ChangedWithin width bytes changed) : changed.length = bytes.length := by
  obtain ⟨front, old, new, back, rfl, rfl, same, -, -⟩ := change
  simp [same]

end SortedTable.Bytes

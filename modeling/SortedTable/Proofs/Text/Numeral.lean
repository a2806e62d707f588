import SortedTable.Text.Numeral

namespace SortedTable.Text

/-- A way to write a number: a plus if it is signed, zeros, and the decimal form. -/
def numeral (signed : Bool) (zeros number : Nat) : String :=
  (if signed then "+" else "") ++ String.ofList (List.replicate zeros '0') ++ number.repr

/-- The digits of a numeral. -/
def numeralDigits (zeros number : Nat) : List Char :=
  List.replicate zeros '0' ++ number.repr.toList

theorem toList_numeral (signed : Bool) (zeros number : Nat) :
    (numeral signed zeros number).toList =
      (if signed then ['+'] else []) ++ numeralDigits zeros number := by
  cases signed <;> simp [numeral, numeralDigits]

theorem numeral_false_zero (number : Nat) : numeral false 0 number = number.repr := by
  simp [numeral]

theorem isDigit_of_mem_numeralDigits {zeros number : Nat} {digit : Char}
    (member : digit ∈ numeralDigits zeros number) : digit.isDigit = true := by
  rcases List.mem_append.1 member with member | member
  · rw [List.eq_of_mem_replicate member]
    rfl
  · rw [Nat.toList_repr] at member
    exact Nat.isDigit_of_mem_toDigits (by decide) (by decide) member

theorem numeralDigits_ne_nil (zeros number : Nat) : numeralDigits zeros number ≠ [] := by
  rw [numeralDigits, Nat.toList_repr]
  exact List.append_ne_nil_of_right_ne_nil _ Nat.toDigits_ne_nil

/-- The characters of a numeral are digits and a plus. -/
theorem eq_plus_or_isDigit_of_mem_numeral {signed : Bool} {zeros number : Nat} {character : Char}
    (member : character ∈ (numeral signed zeros number).toList) :
    character = '+' ∨ character.isDigit = true := by
  rw [toList_numeral, List.mem_append] at member
  rcases member with member | member
  · cases signed with
    | false => cases member
    | true => exact .inl (List.mem_singleton.1 member)
  · exact .inr (isDigit_of_mem_numeralDigits member)

/-- A digit stands for a number below ten, whose only digit it is. -/
theorem toDigits_of_isDigit {digit : Char} (plain : digit.isDigit = true) :
    digit.toNat - '0'.toNat < 10 ∧ Nat.toDigits 10 (digit.toNat - '0'.toNat) = [digit] := by
  rw [Char.isDigit, Bool.and_eq_true, decide_eq_true_iff, decide_eq_true_iff] at plain
  have low : 48 ≤ digit.toNat := UInt32.le_iff_toNat_le.1 plain.1
  have high : digit.toNat ≤ 57 := UInt32.le_iff_toNat_le.1 plain.2
  have zero : '0'.toNat = 48 := rfl
  have small : digit.toNat - '0'.toNat < 10 := by omega
  refine ⟨small, ?_⟩
  rw [Nat.toDigits_of_lt_base small, List.singleton_inj, ← Char.toNat_inj,
    Nat.toNat_digitChar_of_lt_ten small]
  omega

section Reading

variable {limit value number : Nat} {digits : List Char}

/-- One digit is read if it is one and the number stays below the limit. -/
theorem readDigits_cons_eq_ok_iff {digit : Char} :
    readDigits limit (digit :: digits) value = .ok number ↔
      digit.isDigit = true ∧ 10 * value + (digit.toNat - '0'.toNat) < limit ∧
        readDigits limit digits (10 * value + (digit.toNat - '0'.toNat)) = .ok number := by
  rw [readDigits]
  dsimp only
  split
  · rename_i plain
    split
    · rename_i small
      exact ⟨fun read => ⟨plain, small, read⟩, fun parts => parts.2.2⟩
    · rename_i large
      exact ⟨nofun, fun parts => absurd parts.2.1 large⟩
  · rename_i other
    exact ⟨nofun, fun parts => absurd parts.1 other⟩

/-- What was read of the digits and the digits that follow are the decimal form of the number. -/
theorem toDigits_of_readDigits (positive : 0 < value)
    (read : readDigits limit digits value = .ok number) :
    Nat.toDigits 10 value ++ digits = Nat.toDigits 10 number := by
  induction digits generalizing value with
  | nil =>
      cases read
      exact List.append_nil _
  | cons digit rest ih =>
      obtain ⟨plain, -, read⟩ := readDigits_cons_eq_ok_iff.1 read
      obtain ⟨small, own⟩ := toDigits_of_isDigit plain
      have longer : Nat.toDigits 10 value ++ [digit] =
          Nat.toDigits 10 (10 * value + (digit.toNat - '0'.toNat)) := by
        rw [← own]
        exact Nat.toDigits_append_toDigits (by decide) positive small
      rw [← ih (by omega) read, ← longer, List.append_assoc, List.singleton_append]

theorem lt_of_readDigits (inhabited : digits ≠ [])
    (read : readDigits limit digits value = .ok number) : number < limit := by
  induction digits generalizing value with
  | nil => exact absurd rfl inhabited
  | cons digit rest ih =>
      obtain ⟨-, small, read⟩ := readDigits_cons_eq_ok_iff.1 read
      cases rest with
      | nil =>
          cases read
          exact small
      | cons next rest => exact ih nofun read

/-- Digits that are read from zero on are some zeros and the decimal form of the number. -/
theorem exists_zeros_of_readDigits (inhabited : digits ≠ [])
    (read : readDigits limit digits 0 = .ok number) :
    ∃ zeros, digits = numeralDigits zeros number := by
  induction digits with
  | nil => exact absurd rfl inhabited
  | cons digit rest ih =>
      obtain ⟨plain, -, further⟩ := readDigits_cons_eq_ok_iff.1 read
      obtain ⟨small, own⟩ := toDigits_of_isDigit plain
      rw [Nat.mul_zero, Nat.zero_add] at further
      by_cases zero : digit.toNat - '0'.toNat = 0
      · rw [zero] at own further
        obtain rfl : '0' = digit := List.singleton_inj.1 own
        by_cases last : rest = []
        · subst last
          cases further
          exact ⟨0, rfl⟩
        · obtain ⟨zeros, same⟩ := ih last further
          exact ⟨zeros + 1, by rw [same]; rfl⟩
      · have whole := toDigits_of_readDigits (Nat.pos_of_ne_zero zero) further
        rw [own, List.singleton_append] at whole
        exact ⟨0, by rw [whole, numeralDigits, Nat.toList_repr]; rfl⟩

theorem readDigits_of_digits (plain : ∀ digit ∈ digits, digit.isDigit = true)
    (fits : Nat.ofDigitChars 10 digits value < limit) :
    readDigits limit digits value = .ok (Nat.ofDigitChars 10 digits value) := by
  induction digits generalizing value with
  | nil => rfl
  | cons digit rest ih =>
      have next : Nat.ofDigitChars 10 (digit :: rest) value =
          Nat.ofDigitChars 10 rest (10 * value + (digit.toNat - '0'.toNat)) := Nat.ofDigitChars_cons
      rw [next] at fits ⊢
      have grown : 10 * value + (digit.toNat - '0'.toNat) ≤
          Nat.ofDigitChars 10 rest (10 * value + (digit.toNat - '0'.toNat)) := by
        rw [Nat.ofDigitChars_eq_ofDigitChars_zero]
        have power : 0 < 10 ^ rest.length := Nat.pow_pos (by decide)
        exact Nat.le_trans (Nat.le_mul_of_pos_left _ power) (Nat.le_add_right _ _)
      exact readDigits_cons_eq_ok_iff.2 ⟨plain digit List.mem_cons_self, by omega,
        ih (fun other member => plain other (List.mem_cons_of_mem _ member)) fits⟩

/-- Zeros in front do not count. -/
theorem readDigits_numeralDigits (zeros : Nat) (fits : number < limit) :
    readDigits limit (numeralDigits zeros number) 0 = .ok number := by
  induction zeros with
  | zero =>
      have same : Nat.ofDigitChars 10 (numeralDigits 0 number) 0 = number := by
        rw [numeralDigits, List.replicate_zero, List.nil_append, Nat.toList_repr]
        exact Nat.ofDigitChars_ten_toDigits
      rw [readDigits_of_digits (fun _ => isDigit_of_mem_numeralDigits) (by rwa [same]), same]
  | succ zeros ih =>
      exact readDigits_cons_eq_ok_iff.2 ⟨rfl, Nat.zero_lt_of_lt fits, ih⟩

end Reading

/-- A text is read as a number exactly if it is a way to write it and the number is below the limit. -/
theorem readNumeral_eq_ok_iff {limit number : Nat} {text : String} :
    readNumeral limit text = .ok number ↔
      number < limit ∧ ∃ signed zeros, text = numeral signed zeros number := by
  constructor
  · intro read
    unfold readNumeral at read
    split at read
    · cases read
    · cases read
    · rename_i digits inhabited shape
      obtain ⟨zeros, same⟩ := exists_zeros_of_readDigits inhabited read
      refine ⟨lt_of_readDigits inhabited read, true, zeros, ?_⟩
      rw [← String.toList_inj, shape, toList_numeral, same]
      rfl
    · rename_i empty _ _
      obtain ⟨zeros, same⟩ := exists_zeros_of_readDigits empty read
      refine ⟨lt_of_readDigits empty read, false, zeros, ?_⟩
      rw [← String.toList_inj, toList_numeral, same]
      rfl
  · rintro ⟨fits, signed, zeros, rfl⟩
    have read := readDigits_numeralDigits zeros fits
    obtain ⟨digit, rest, shape⟩ := List.exists_cons_of_ne_nil (numeralDigits_ne_nil zeros number)
    have plain : digit.isDigit = true := isDigit_of_mem_numeralDigits (shape ▸ List.mem_cons_self)
    rw [shape] at read
    rw [readNumeral, toList_numeral, shape]
    cases signed with
    | true => exact read
    | false =>
        have unsigned : digit ≠ '+' := by
          rintro rfl
          exact absurd plain (by decide)
        rw [if_neg Bool.false_ne_true, List.nil_append]
        split
        · rename_i nothing
          cases nothing
        · rename_i sign
          exact absurd (List.cons.inj sign).1 unsigned
        · rename_i sign
          exact absurd (List.cons.inj sign).1 unsigned
        · exact read

/-- A text is read as a number of sixty-four bits exactly if it is a way to write it. -/
theorem readWord64_eq_ok_iff {text : String} {number : UInt64} :
    readWord64 text = .ok number ↔ ∃ signed zeros, text = numeral signed zeros number.toNat := by
  rw [readWord64]
  constructor
  · intro read
    cases found : readNumeral UInt64.size text with
    | error flaw =>
        rw [found] at read
        cases read
    | ok value =>
        obtain ⟨fits, written⟩ := readNumeral_eq_ok_iff.1 found
        rw [found] at read
        cases read
        rwa [UInt64.toNat_ofNat_of_lt' fits]
  · intro written
    rw [readNumeral_eq_ok_iff.2 ⟨number.toNat_lt_size, written⟩]
    exact congrArg Except.ok UInt64.ofNat_toNat

end SortedTable.Text

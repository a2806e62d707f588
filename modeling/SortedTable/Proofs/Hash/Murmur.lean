import Mathlib.Logic.Function.Basic
import SortedTable.Key
import SortedTable.Proofs.Bytes

namespace SortedTable.Murmur

section

variable {amount factor inverse : UInt64}

theorem toNat_sub_amount (below : amount.toNat < 64) : (64 - amount).toNat = 64 - amount.toNat :=
  UInt64.toNat_sub_of_le 64 amount (UInt64.le_iff_toNat_le.2 (Nat.le_of_lt below))

/-- The high bits of a word fill as many places as it is turned by. -/
theorem high_lt (below : amount.toNat < 64) (word : UInt64) :
    word.toNat / 2 ^ (64 - amount.toNat) < 2 ^ amount.toNat := by
  rw [Nat.div_lt_iff_lt_mul (Nat.two_pow_pos _), ← Nat.pow_add,
    Nat.add_sub_cancel' (Nat.le_of_lt below)]
  exact word.toNat_lt

/-- The low bits of a word come to stand above the high ones. -/
theorem toNat_rotateLeft (positive : 0 < amount.toNat) (below : amount.toNat < 64) (word : UInt64) :
    (rotateLeft word amount).toNat =
      word.toNat % 2 ^ (64 - amount.toNat) * 2 ^ amount.toNat +
        word.toNat / 2 ^ (64 - amount.toNat) := by
  have whole : 2 ^ 64 = 2 ^ (64 - amount.toNat) * 2 ^ amount.toNat := by
    rw [← Nat.pow_add, Nat.sub_add_cancel (Nat.le_of_lt below)]
  rw [rotateLeft, UInt64.toNat_or, UInt64.toNat_shiftLeft, UInt64.toNat_shiftRight,
    toNat_sub_amount below, Nat.mod_eq_of_lt below,
    Nat.mod_eq_of_lt (show 64 - amount.toNat < 64 by omega), Nat.shiftLeft_eq,
    Nat.shiftRight_eq_div_pow, whole, Nat.mul_mod_mul_right, ← Nat.shiftLeft_eq,
    Nat.shiftLeft_add_eq_or_of_lt (high_lt below word)]

/-- A turn is undone by the rest of a full turn. -/
theorem rotateLeft_rotateLeft (positive : 0 < amount.toNat) (below : amount.toNat < 64)
    (word : UInt64) : rotateLeft (rotateLeft word amount) (64 - amount) = word := by
  have back := toNat_sub_amount below
  have rest : 64 - (64 - amount.toNat) = amount.toNat := by omega
  have high := high_lt below word
  apply UInt64.toNat_inj.1
  rw [toNat_rotateLeft (by omega) (by omega), back, rest, toNat_rotateLeft positive below,
    Nat.mul_add_mod_of_lt high]
  rw [Nat.mul_comm (_ % _), Nat.mul_add_div (Nat.two_pow_pos _), Nat.div_eq_of_lt high, Nat.add_zero,
    Nat.mul_comm (_ / _), Nat.div_add_mod]

theorem rotateLeft_injective (positive : 0 < amount.toNat) (below : amount.toNat < 64) :
    Function.Injective fun word => rotateLeft word amount :=
  Function.LeftInverse.injective (g := fun word => rotateLeft word (64 - amount))
    (rotateLeft_rotateLeft positive below)

/-- A factor that has an inverse loses nothing. -/
theorem mul_injective (inverts : factor * inverse = 1) :
    Function.Injective fun word : UInt64 => word * factor := by
  intro left right same
  calc left
    _ = left * factor * inverse := by rw [UInt64.mul_assoc, inverts, UInt64.mul_one]
    _ = right * factor * inverse := congrArg (· * inverse) same
    _ = right := by rw [UInt64.mul_assoc, inverts, UInt64.mul_one]

end

theorem mul_firstFactor_injective : Function.Injective fun word : UInt64 => word * firstFactor :=
  mul_injective (show firstFactor * 0xa98409e882ce4d7d = 1 by decide)

theorem mul_secondFactor_injective : Function.Injective fun word : UInt64 => word * secondFactor :=
  mul_injective (show secondFactor * 0xa81e14edd9de2c7f = 1 by decide)

theorem mixFirst_injective : Function.Injective mixFirst :=
  mul_secondFactor_injective.comp
    ((rotateLeft_injective (by decide) (by decide)).comp mul_firstFactor_injective)

theorem mixSecond_injective : Function.Injective mixSecond :=
  mul_firstFactor_injective.comp
    ((rotateLeft_injective (by decide) (by decide)).comp mul_secondFactor_injective)

/-- A word that is folded onto its lower half twice is as before. -/
theorem fold_involutive : Function.Involutive fun word : UInt64 => word ^^^ (word >>> 33) := by
  intro word
  have gone : word >>> 33 >>> 33 = 0 := by
    have small := word.toNat_lt
    apply UInt64.toNat_inj.1
    rw [UInt64.toNat_shiftRight, UInt64.toNat_shiftRight, Nat.shiftRight_eq_div_pow,
      Nat.shiftRight_eq_div_pow]
    change word.toNat / 2 ^ 33 / 2 ^ 33 = 0
    omega
  dsimp only
  rw [UInt64.shiftRight_xor, gone, UInt64.xor_zero, UInt64.xor_assoc, UInt64.xor_self, UInt64.xor_zero]

theorem spread_injective : Function.Injective spread := by
  have first := mul_injective (show (0xff51afd7ed558ccd : UInt64) * 0x4f74430c22a54005 = 1 by decide)
  have second := mul_injective (show (0xc4ceb9fe1a85ec53 : UInt64) * 0x9cb4b2f8129337db = 1 by decide)
  have fold := fold_involutive.injective
  exact fold.comp (second.comp (fold.comp (first.comp fold)))

/-- At most eight bytes are read as the number that they spell. -/
theorem toNat_readWord {bytes : Bytes} (short : bytes.length ≤ 8) :
    (readWord bytes).toNat = Bytes.ofLittleEndian bytes := by
  induction bytes with
  | nil => rfl
  | cons byte rest ih =>
      rw [List.length_cons] at short
      have room := Bytes.ofLittleEndian_lt (Nat.le_of_succ_le_succ short)
      have read := ih (Nat.le_of_succ_le short)
      have shifted : (readWord rest).toNat <<< 8 % 2 ^ 64 = (readWord rest).toNat <<< 8 := by
        rw [read, Nat.shiftLeft_eq]
        apply Nat.mod_eq_of_lt
        omega
      have word : readWord (byte :: rest) = (readWord rest <<< 8) ||| byte.toUInt64 := rfl
      rw [word, UInt64.toNat_or, UInt64.toNat_shiftLeft, UInt8.toNat_toUInt64]
      change (readWord rest).toNat <<< 8 % 2 ^ 64 ||| byte.toNat = _
      rw [shifted, ← Nat.shiftLeft_add_eq_or_of_lt byte.toNat_lt, read, Nat.shiftLeft_eq,
        Bytes.ofLittleEndian]
      omega

/-- Bytes are their front and what is behind it. -/
theorem eq_of_take_of_drop {left right : Bytes} (count : Nat)
    (front : left.take count = right.take count) (back : left.drop count = right.drop count) :
    left = right := by
  rw [← List.take_append_drop count left, ← List.take_append_drop count right, front, back]

theorem eq_of_readWord_eq {left right : Bytes} (size : left.length = right.length)
    (short : left.length ≤ 8) (same : readWord left = readWord right) : left = right := by
  have numbers := congrArg UInt64.toNat same
  rw [toNat_readWord short, toNat_readWord (size ▸ short)] at numbers
  rw [← Bytes.littleEndian_ofLittleEndian left, ← Bytes.littleEndian_ofLittleEndian right, numbers,
    size]

namespace Words

/-- At most sixteen bytes are decided by their number and their two words. -/
theorem eq_of_ofBytes_eq {left right : Bytes} (size : left.length = right.length)
    (short : left.length ≤ 16) (same : ofBytes left = ofBytes right) : left = right := by
  obtain ⟨first, second⟩ := Words.mk.inj same
  have front : left.take 8 = right.take 8 := by
    refine eq_of_readWord_eq ?_ ?_ first
    · rw [List.length_take, List.length_take, size]
    · exact List.length_take_le 8 left
  have back : left.drop 8 = right.drop 8 := by
    refine eq_of_readWord_eq ?_ ?_ second
    · rw [List.length_drop, List.length_drop, size]
    · rw [List.length_drop]
      omega
  exact eq_of_take_of_drop 8 front back

/-- The last step for a word of the state. -/
theorem scale_injective (offset : UInt64) :
    Function.Injective fun word : UInt64 => word * 5 + offset := by
  have scaled := mul_injective (show (5 : UInt64) * 0xcccccccccccccccd = 1 by decide)
  exact fun _ _ same => scaled ((UInt64.add_left_inj offset).1 same)

/-- States behind a block agree if and only if the sums inside their words do. -/
theorem absorb_eq_absorb_iff {left right block other : Words} :
    left.absorb block = right.absorb other ↔
      rotateLeft (left.first ^^^ mixFirst block.first) 27 + left.second =
          rotateLeft (right.first ^^^ mixFirst other.first) 27 + right.second ∧
        rotateLeft (left.second ^^^ mixSecond block.second) 31 =
          rotateLeft (right.second ^^^ mixSecond other.second) 31 := by
  constructor
  · intro same
    obtain ⟨first, second⟩ := Words.mk.inj same
    have sum := scale_injective _ second
    rw [first] at sum
    exact ⟨scale_injective _ first, (UInt64.add_left_inj _).1 sum⟩
  · rintro ⟨first, second⟩
    rw [absorb, absorb, first, second]

/-- A state and the one behind a block decide the block. -/
theorem absorb_injective (state : Words) : Function.Injective state.absorb := by
  intro left right same
  obtain ⟨first, second⟩ := absorb_eq_absorb_iff.1 same
  have turned := rotateLeft_injective (by decide) (by decide) ((UInt64.add_left_inj _).1 first)
  have turned' := rotateLeft_injective (by decide) (by decide) second
  exact congrArg₂ Words.mk (mixFirst_injective ((UInt64.xor_right_inj _).1 turned))
    (mixSecond_injective ((UInt64.xor_right_inj _).1 turned'))

/-- A block and the state behind it decide the state in front. -/
theorem absorb_state_injective (block : Words) :
    Function.Injective fun state : Words => state.absorb block := by
  intro left right same
  obtain ⟨first, second⟩ := absorb_eq_absorb_iff.1 same
  have behind : left.second = right.second :=
    (UInt64.xor_left_inj _).1 (rotateLeft_injective (by decide) (by decide) second)
  rw [behind] at first
  have turned := rotateLeft_injective (by decide) (by decide) ((UInt64.add_left_inj _).1 first)
  exact congrArg₂ Words.mk ((UInt64.xor_left_inj _).1 turned) behind

/-- Adds each word to the other one. -/
def cross (words : Words) : Words where
  first := words.first + words.second
  second := words.second + (words.first + words.second)

theorem cross_injective : Function.Injective cross := by
  intro left right same
  obtain ⟨first, second⟩ := Words.mk.inj same
  rw [first] at second
  have behind := (UInt64.add_left_inj _).1 second
  rw [behind] at first
  exact congrArg₂ Words.mk ((UInt64.add_left_inj _).1 first) behind

/-- Stirs the two words together. -/
def stir (words : Words) : Words := cross ⟨spread (cross words).first, spread (cross words).second⟩

theorem stir_injective : Function.Injective stir := by
  intro left right same
  obtain ⟨first, second⟩ := Words.mk.inj (cross_injective same)
  exact cross_injective (congrArg₂ Words.mk (spread_injective first) (spread_injective second))

theorem finish_eq_stir (state rest : Words) (length : UInt64) : state.finish rest length =
    stir ⟨state.first ^^^ mixFirst rest.first ^^^ length,
      state.second ^^^ mixSecond rest.second ^^^ length⟩ := rfl

/-- Ends agree if and only if what was mixed into their words does. -/
theorem finish_eq_finish_iff {left right rest other : Words} {length : UInt64} :
    left.finish rest length = right.finish other length ↔
      left.first ^^^ mixFirst rest.first = right.first ^^^ mixFirst other.first ∧
        left.second ^^^ mixSecond rest.second = right.second ^^^ mixSecond other.second := by
  rw [finish_eq_stir, finish_eq_stir, stir_injective.eq_iff, Words.mk.injEq,
    UInt64.xor_left_inj, UInt64.xor_left_inj]

/-- A state and the hash decide the rest of the input. -/
theorem finish_injective (state : Words) (length : UInt64) :
    Function.Injective fun rest => state.finish rest length := by
  intro left right same
  obtain ⟨first, second⟩ := finish_eq_finish_iff.1 same
  exact congrArg₂ Words.mk (mixFirst_injective ((UInt64.xor_right_inj _).1 first))
    (mixSecond_injective ((UInt64.xor_right_inj _).1 second))

/-- The rest of the input and the hash decide the state. -/
theorem finish_state_injective (rest : Words) (length : UInt64) :
    Function.Injective fun state : Words => state.finish rest length := by
  intro left right same
  obtain ⟨first, second⟩ := finish_eq_finish_iff.1 same
  exact congrArg₂ Words.mk ((UInt64.xor_left_inj _).1 first) ((UInt64.xor_left_inj _).1 second)

end Words

theorem rest_absorbBlocks (count : Nat) (state : Words) (bytes : Bytes) :
    (absorbBlocks count state bytes).2 = bytes.drop (16 * count) := by
  induction count generalizing state bytes with
  | zero => rfl
  | succ count ih => rw [absorbBlocks, ih, List.drop_drop, Nat.mul_succ, Nat.add_comm]

/-- The same blocks keep states apart. -/
theorem absorbBlocks_injective (count : Nat) (bytes : Bytes) :
    Function.Injective fun state => (absorbBlocks count state bytes).1 := by
  induction count generalizing bytes with
  | zero => exact fun _ _ same => same
  | succ count ih =>
      exact (ih (bytes.drop 16)).comp (Words.absorb_state_injective (.ofBytes (bytes.take 16)))

/-- Two byte strings of one length that differ in a block of sixteen and nowhere else. -/
structure DifferWithin (block : Nat) (left right : Bytes) : Prop where
  length_eq : left.length = right.length
  elsewhere : ∀ place, place / 16 ≠ block → left[place]? = right[place]?
  ne : left ≠ right

instance (block : Nat) (left right : Bytes) : Decidable (DifferWithin block left right) :=
  decidable_of_iff (left.length = right.length ∧
      (∀ place < left.length, place / 16 ≠ block → left[place]? = right[place]?) ∧ left ≠ right) <| by
    constructor
    · rintro ⟨size, inside, ne⟩
      refine ⟨size, fun place other => ?_, ne⟩
      by_cases below : place < left.length
      · exact inside place below other
      · rw [List.getElem?_eq_none (by omega), List.getElem?_eq_none (by omega)]
    · exact fun differ => ⟨differ.length_eq, fun place _ => differ.elsewhere place, differ.ne⟩

namespace DifferWithin

variable {block count : Nat} {left right : Bytes}

theorem take_eq (differ : DifferWithin block left right) (behind : count ≤ block) :
    left.take (16 * count) = right.take (16 * count) := by
  apply List.ext_getElem?
  intro place
  rw [List.getElem?_take, List.getElem?_take]
  split
  · exact differ.elsewhere place (by omega)
  · rfl

theorem drop_eq (differ : DifferWithin block left right) (before : block < count) :
    left.drop (16 * count) = right.drop (16 * count) := by
  apply List.ext_getElem?
  intro place
  rw [List.getElem?_drop, List.getElem?_drop]
  exact differ.elsewhere (16 * count + place) (by omega)

/-- Without their first block, the strings differ in a block that comes one earlier. -/
theorem drop (differ : DifferWithin (block + 1) left right) :
    DifferWithin block (left.drop 16) (right.drop 16) where
  length_eq := by rw [List.length_drop, List.length_drop, differ.length_eq]
  elsewhere place other := by
    rw [List.getElem?_drop, List.getElem?_drop]
    exact differ.elsewhere (16 + place) (by omega)
  ne same := by
    have front : left.take 16 = right.take 16 := differ.take_eq (show 1 ≤ block + 1 by omega)
    exact differ.ne (eq_of_take_of_drop 16 front same)

/-- Strings that differ in the first block have other words in it. -/
theorem ofBytes_ne (differ : DifferWithin 0 left right) :
    Words.ofBytes (left.take 16) ≠ Words.ofBytes (right.take 16) := by
  intro same
  have size : (left.take 16).length = (right.take 16).length := by
    rw [List.length_take, List.length_take, differ.length_eq]
  have front := Words.eq_of_ofBytes_eq size (List.length_take_le 16 left) same
  have back : left.drop 16 = right.drop 16 := differ.drop_eq (show 0 < 1 by decide)
  exact differ.ne (eq_of_take_of_drop 16 front back)

/-- The blocks in front of the one that differs lead to one state. -/
theorem absorbBlocks_eq (differ : DifferWithin block left right) (behind : count ≤ block)
    (state : Words) : (absorbBlocks count state left).1 = (absorbBlocks count state right).1 := by
  induction count generalizing block left right state with
  | zero => rfl
  | succ count ih =>
      obtain ⟨block, rfl⟩ : ∃ before, block = before + 1 := ⟨block - 1, by omega⟩
      have front : left.take 16 = right.take 16 := differ.take_eq (show 1 ≤ block + 1 by omega)
      rw [absorbBlocks, absorbBlocks, front]
      exact ih differ.drop (by omega) _

/-- The block that differs leads to two states, and no block behind it brings them together. -/
theorem absorbBlocks_ne (differ : DifferWithin block left right) (before : block < count)
    (state : Words) : (absorbBlocks count state left).1 ≠ (absorbBlocks count state right).1 := by
  induction count generalizing block left right state with
  | zero => omega
  | succ count ih =>
      rw [absorbBlocks, absorbBlocks]
      cases block with
      | zero =>
          have back : left.drop 16 = right.drop 16 := differ.drop_eq (show 0 < 1 by decide)
          rw [back]
          intro same
          exact differ.ofBytes_ne (state.absorb_injective (absorbBlocks_injective count _ same))
      | succ block =>
          have front : left.take 16 = right.take 16 := differ.take_eq (show 1 ≤ block + 1 by omega)
          rw [front]
          exact ih differ.drop (by omega) _

theorem hash_ne (differ : DifferWithin block left right) (seed : UInt64) :
    hash left seed ≠ hash right seed := by
  intro same
  simp only [hash, rest_absorbBlocks, differ.length_eq] at same
  -- the strings differ in a whole block or in the rest behind all of them
  by_cases before : block < right.length / 16
  · rw [differ.drop_eq before] at same
    exact differ.absorbBlocks_ne before _ (Words.finish_state_injective _ _ same)
  · have front := differ.take_eq (Nat.le_of_not_lt before)
    rw [differ.absorbBlocks_eq (Nat.le_of_not_lt before)] at same
    have back : left.drop (16 * (right.length / 16)) = right.drop (16 * (right.length / 16)) := by
      refine Words.eq_of_ofBytes_eq ?_ ?_ (Words.finish_injective _ _ same)
      · rw [List.length_drop, List.length_drop, differ.length_eq]
      · rw [List.length_drop, differ.length_eq]
        omega
    exact differ.ne (eq_of_take_of_drop _ front back)

/-- Short strings are a single block. -/
theorem of_short (size : left.length = right.length) (short : left.length ≤ 16) (ne : left ≠ right) :
    DifferWithin 0 left right where
  length_eq := size
  elsewhere place other := by
    rw [List.getElem?_eq_none (by omega), List.getElem?_eq_none (by omega)]
  ne := ne

end DifferWithin

/-- Strings of one length that differ in a single block of sixteen bytes never share both hash words. -/
theorem hash_tells_apart :
    (∀ (seed : UInt64) (block : Nat) (left right : Bytes), DifferWithin block left right →
      hash left seed ≠ hash right seed) ∧
    ∀ left right : Key, left ≠ right → left.bytes.length = right.bytes.length →
      left.bytes.length ≤ 16 → left.hash ≠ right.hash := by
  constructor
  · exact fun seed _ _ _ differ => differ.hash_ne seed
  · intro left right other size short
    have differ := DifferWithin.of_short size short (mt Key.ext other)
    rw [left.hashed, right.hashed]
    exact differ.hash_ne 0

/-- Strings that differ in the middle of three blocks, strings that differ in the last byte, and two
keys. -/
theorem hash_tells_apart_samples :
    let zeros := Bytes.repeated [0]
    DifferWithin 1 (zeros 40) (zeros 20 ++ [1, 2, 3, 4, 5, 6] ++ zeros 14) ∧
      hash (zeros 40) 7 ≠ hash (zeros 20 ++ [1, 2, 3, 4, 5, 6] ++ zeros 14) 7 ∧
      hash (zeros 20) 0 ≠ hash (zeros 19 ++ [1]) 0 ∧
      (Key.ofBytes [1, 2]).hash ≠ (Key.ofBytes [2, 1]).hash := by
  obtain ⟨strings, keys⟩ := hash_tells_apart
  have middle : DifferWithin 1 (Bytes.repeated [0] 40)
      (Bytes.repeated [0] 20 ++ [1, 2, 3, 4, 5, 6] ++ Bytes.repeated [0] 14) := by decide
  have last : DifferWithin 1 (Bytes.repeated [0] 20) (Bytes.repeated [0] 19 ++ [1]) := by decide
  exact ⟨middle, strings 7 1 _ _ middle, strings 0 1 _ _ last, keys _ _ (by decide) rfl (by decide)⟩

end SortedTable.Murmur

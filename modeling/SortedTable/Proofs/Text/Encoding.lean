import SortedTable.Proofs.Decoder

namespace SortedTable.Bytes

variable {byte : UInt8} {text other : String}

theorem ofText_eq (text : String) : ofText text = text.toList.flatMap String.utf8EncodeChar := by
  have encoded := @String.utf8Encode_toList text
  unfold List.utf8Encode at encoded
  simp [ofText, ← encoded]

theorem ofText_append (text other : String) : ofText (text ++ other) = ofText text ++ ofText other := by
  simp [ofText_eq]

theorem ofText_inj : ofText text = ofText other ↔ text = other := by
  constructor
  · intro same
    have read := text?_ofText text
    rw [same, text?_ofText] at read
    exact (Option.some.inj read).symm
  · rintro rfl
    rfl

/-- A byte in ASCII is in the form of no character but its own. -/
theorem toNat_of_mem_utf8EncodeChar (ascii : byte.toNat < 128) {character : Char}
    (member : byte ∈ String.utf8EncodeChar character) : character.toNat = byte.toNat := by
  have number (value : Nat) (same : byte = UInt8.ofNat value) : byte.toNat = value % 256 := by
    rw [same]
    exact UInt8.toNat_ofNat'
  change character.val.toNat = byte.toNat
  unfold String.utf8EncodeChar at member
  dsimp only at member
  split at member
  · rename_i small
    have same := number _ (List.mem_singleton.1 member)
    omega
  · split at member
    · simp only [List.mem_cons, List.not_mem_nil, or_false] at member
      rcases member with same | same <;> have same := number _ same <;> omega
    · split at member
      · simp only [List.mem_cons, List.not_mem_nil, or_false] at member
        rcases member with same | same | same <;> have same := number _ same <;> omega
      · simp only [List.mem_cons, List.not_mem_nil, or_false] at member
        rcases member with same | same | same | same <;> have same := number _ same <;> omega

/-- A byte in ASCII is in the form of a text only if the text has its character. -/
theorem mem_of_mem_ofText (ascii : byte.toNat < 128) (member : byte ∈ ofText text) :
    Char.ofNat byte.toNat ∈ text.toList := by
  rw [ofText_eq, List.mem_flatMap] at member
  obtain ⟨character, held, encoded⟩ := member
  rw [← toNat_of_mem_utf8EncodeChar ascii encoded, Char.ofNat_toNat]
  exact held

/-- A byte in ASCII ends the form of a text only if its character ends the text. -/
theorem getLast?_of_getLast?_ofText (ascii : byte.toNat < 128)
    (last : (ofText text).getLast? = some byte) :
    text.toList.getLast? = some (Char.ofNat byte.toNat) := by
  rw [ofText_eq] at last
  rcases List.eq_nil_or_concat text.toList with nothing | ⟨front, character, shape⟩
  · rw [nothing] at last
    cases last
  · have inhabited : String.utf8EncodeChar character ≠ [] := by
      have length := String.length_utf8EncodeChar character
      have size := character.utf8Size_pos
      intro nothing
      rw [nothing, List.length_nil] at length
      omega
    rw [shape, List.concat_eq_append, List.flatMap_append, List.flatMap_singleton,
      List.getLast?_append_of_ne_nil _ inhabited] at last
    rw [shape, List.concat_eq_append, List.getLast?_concat,
      ← toNat_of_mem_utf8EncodeChar ascii (List.mem_of_getLast? last), Char.ofNat_toNat]

end SortedTable.Bytes

namespace SortedTable

/-- A byte string is a list of octets. -/
abbrev Bytes := List UInt8

namespace Bytes

/-- The number of values that a width in bytes has. -/
def limit : Nat → Nat
  | 0 => 1
  | width + 1 => 256 * limit width

/-- The least significant byte comes first; what does not fit the width is dropped. -/
def littleEndian : Nat → Nat → Bytes
  | 0, _ => []
  | width + 1, value => UInt8.ofNat value :: littleEndian width (value / 256)

@[simp] theorem length_littleEndian (width value : Nat) :
    (littleEndian width value).length = width := by
  induction width generalizing value with
  | zero => rfl
  | succ width ih => simp [littleEndian, ih]

/-- The number with these bytes, the least significant one first. -/
def ofLittleEndian : Bytes → Nat
  | [] => 0
  | byte :: rest => byte.toNat + 256 * ofLittleEndian rest

theorem ofLittleEndian_littleEndian (width value : Nat) :
    ofLittleEndian (littleEndian width value) = value % limit width := by
  induction width generalizing value with
  | zero => simp [littleEndian, ofLittleEndian, limit, Nat.mod_one]
  | succ width ih =>
      have head : (UInt8.ofNat value).toNat = value % 256 := by simp
      rw [littleEndian, ofLittleEndian, ih, head, limit, Nat.mod_mul]

theorem ofLittleEndian_littleEndian_of_lt {width value : Nat} (fits : value < limit width) :
    ofLittleEndian (littleEndian width value) = value := by
  rw [ofLittleEndian_littleEndian, Nat.mod_eq_of_lt fits]

/-- The most significant byte comes first. -/
def bigEndian (width value : Nat) : Bytes := (littleEndian width value).reverse

@[simp] theorem length_bigEndian (width value : Nat) :
    (bigEndian width value).length = width := by
  simp [bigEndian]

/-- The number with these bytes, the most significant one first. -/
def ofBigEndian (bytes : Bytes) : Nat := ofLittleEndian bytes.reverse

theorem ofBigEndian_bigEndian_of_lt {width value : Nat} (fits : value < limit width) :
    ofBigEndian (bigEndian width value) = value := by
  simp [ofBigEndian, bigEndian, ofLittleEndian_littleEndian_of_lt fits]

/-- The four bytes of a word, the least significant one first. -/
def word32 (value : UInt32) : Bytes := littleEndian 4 value.toNat

/-- The eight bytes of a word, the least significant one first. -/
def word64 (value : UInt64) : Bytes := littleEndian 8 value.toNat

/-- The UTF-8 form of a text. -/
def ofText (text : String) : Bytes := text.toUTF8.data.toList

/-- The text with this UTF-8 form, if the bytes are well formed. -/
def text? (bytes : Bytes) : Option String := String.fromUTF8? bytes.toByteArray

/-- Copies the bytes a number of times in a row. -/
def repeated (bytes : Bytes) (count : Nat) : Bytes := (List.replicate count bytes).flatten

end Bytes

end SortedTable

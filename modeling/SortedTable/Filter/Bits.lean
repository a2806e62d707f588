import SortedTable.Bytes

namespace SortedTable

/-- The largest bit array in bytes. -/
def maxFilterBytes : Nat := 128 * 1024 * 1024

/-- The largest bit array in words. -/
def maxFilterWords : Nat := maxFilterBytes / 8

/-- An array of bits in words. -/
structure Bits where
  words : Array UInt64
  positive : 0 < words.size
  bounded : words.size ≤ maxFilterWords
  deriving DecidableEq

namespace Bits

/-- A number of words, all zero. -/
def zero (count : Nat) (positive : 0 < count) (bounded : count ≤ maxFilterWords) : Bits :=
  ⟨Array.replicate count 0, by simpa using positive, by simpa using bounded⟩

/-- These words, unless there are none or too many. -/
def ofWords? (words : Array UInt64) : Option Bits :=
  if fits : 0 < words.size ∧ words.size ≤ maxFilterWords then some ⟨words, fits.1, fits.2⟩
  else none

instance : Inhabited Bits := ⟨zero 1 (by decide) (by decide)⟩

/-- The number of bits. -/
def capacity (bits : Bits) : UInt64 := 64 * UInt64.ofNat bits.words.size

/-- The size of the words in bytes. -/
def byteSize (bits : Bits) : UInt64 := 8 * UInt64.ofNat bits.words.size

/-- The word that holds a bit. -/
def wordIndex (index : UInt64) : Nat := (index >>> 6).toNat

/-- The place of a bit in its word. -/
def mask (index : UInt64) : UInt64 := 1 <<< (index &&& 63)

/-- Sets one bit. -/
def set (bits : Bits) (index : UInt64) : Bits :=
  ⟨bits.words.modify (wordIndex index) (· ||| mask index),
    by simpa using bits.positive, by simpa using bits.bounded⟩

/-- Whether a bit is set. -/
def get (bits : Bits) (index : UInt64) : Bool :=
  bits.words.getD (wordIndex index) 0 &&& mask index != 0

/-- The same number of words, all zero. -/
def cleared (bits : Bits) : Bits := zero bits.words.size bits.positive bits.bounded

@[simp] theorem size_set (bits : Bits) (index : UInt64) :
    (bits.set index).words.size = bits.words.size := by
  simp [set]

@[simp] theorem capacity_set (bits : Bits) (index : UInt64) :
    (bits.set index).capacity = bits.capacity := by
  simp [capacity]

end Bits

end SortedTable

import SortedTable.Filter.Error
import SortedTable.Hash.Murmur

namespace SortedTable

/-- The most hash functions that a filter is sized or stored with. -/
def maxHashCount : UInt32 := 20

/-- A bit array with its number of hash functions. -/
structure Bloom where
  hashCount : UInt32
  bits : Bits
  hashing : 0 < hashCount
  deriving DecidableEq

namespace Bloom

instance : Inhabited Bloom := ⟨⟨1, default, by decide⟩⟩

/-- An empty filter of given size. -/
def withParameters (hashCount : UInt32) (words : UInt64) : Except FilterError Bloom :=
  if hashing : 0 < hashCount then
    if positive : 0 < words.toNat then
      if bounded : words.toNat ≤ maxFilterWords then
        .ok ⟨hashCount, .zero words.toNat positive bounded, hashing⟩
      else .error (.invalidParameters (.tooManyWords words))
    else .error (.invalidParameters .noBits)
  else .error (.invalidParameters .noHashFunction)

/-- The bit that a hash function gives to a key. -/
def position (capacity : UInt64) (hash : Murmur.Words) (function : UInt64) : UInt64 :=
  (hash.first + function * hash.second) % capacity

/-- Sets the bits of `count` hash functions from `function` on. -/
def setFrom (hash : Murmur.Words) : Nat → UInt64 → Bits → Bits
  | 0, _, bits => bits
  | count + 1, function, bits =>
      setFrom hash count (function + 1) (bits.set (position bits.capacity hash function))

/-- Whether the bits of `count` hash functions from `function` on are set. -/
def testFrom (hash : Murmur.Words) (bits : Bits) : Nat → UInt64 → Bool
  | 0, _ => true
  | count + 1, function =>
      bits.get (position bits.capacity hash function) && testFrom hash bits count (function + 1)

def add (bloom : Bloom) (hash : Murmur.Words) : Bloom :=
  { bloom with bits := setFrom hash bloom.hashCount.toNat 0 bloom.bits }

/-- `false` means that the key was never added. -/
def isPresent (bloom : Bloom) (hash : Murmur.Words) : Bool :=
  testFrom hash bloom.bits bloom.hashCount.toNat 0

end Bloom

end SortedTable

import SortedTable.Bytes

namespace SortedTable.Murmur

/-- The two words of a hash, or of the state between two blocks. -/
structure Words where
  first : UInt64
  second : UInt64
  deriving DecidableEq, Repr, Inhabited

def firstFactor : UInt64 := 0x87c37b91114253d5

def secondFactor : UInt64 := 0x4cf5ad432745937f

/-- Turns a word to the left; `0 < amount < 64`. -/
def rotateLeft (word amount : UInt64) : UInt64 := (word <<< amount) ||| (word >>> (64 - amount))

/-- The word with these bytes, the least significant one first; missing bytes are zero. -/
def readWord (bytes : Bytes) : UInt64 :=
  bytes.foldr (fun byte word => (word <<< 8) ||| byte.toUInt64) 0

def mixFirst (word : UInt64) : UInt64 := rotateLeft (word * firstFactor) 31 * secondFactor

def mixSecond (word : UInt64) : UInt64 := rotateLeft (word * secondFactor) 33 * firstFactor

/-- Spreads the bits of a word over the whole word. -/
def spread (word : UInt64) : UInt64 :=
  let word := (word ^^^ (word >>> 33)) * 0xff51afd7ed558ccd
  let word := (word ^^^ (word >>> 33)) * 0xc4ceb9fe1a85ec53
  word ^^^ (word >>> 33)

/-- Mixes the two words of one whole block into the state. -/
def Words.absorb (state block : Words) : Words :=
  let first := rotateLeft (state.first ^^^ mixFirst block.first) 27 + state.second
  let first := first * 5 + 0x52dce729
  let second := rotateLeft (state.second ^^^ mixSecond block.second) 31 + first
  ⟨first, second * 5 + 0x38495ab5⟩

/-- The two words of at most sixteen bytes. -/
def Words.ofBytes (bytes : Bytes) : Words := ⟨readWord (bytes.take 8), readWord (bytes.drop 8)⟩

/-- Mixes `count` whole blocks into the state and leaves the bytes behind them. -/
def absorbBlocks : Nat → Words → Bytes → Words × Bytes
  | 0, state, bytes => (state, bytes)
  | count + 1, state, bytes =>
      absorbBlocks count (state.absorb (.ofBytes (bytes.take 16))) (bytes.drop 16)

/-- Mixes in the rest behind the last whole block and the length of the whole input. -/
def Words.finish (state rest : Words) (length : UInt64) : Words :=
  let first := state.first ^^^ mixFirst rest.first ^^^ length
  let second := state.second ^^^ mixSecond rest.second ^^^ length
  let first := first + second
  let second := second + first
  let first := spread first
  let second := spread second
  let first := first + second
  ⟨first, second + first⟩

/-- The hash of bytes under a seed. -/
def hash (bytes : Bytes) (seed : UInt64) : Words :=
  let length := bytes.length
  let (state, rest) := absorbBlocks (length / 16) ⟨seed, seed⟩ bytes
  state.finish (.ofBytes rest) (UInt64.ofNat length)

end SortedTable.Murmur

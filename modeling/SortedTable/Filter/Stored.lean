import SortedTable.Bytes.Decoder
import SortedTable.Filter.Bloom

namespace SortedTable

/-- The older form has the most significant byte first and eight bytes for the number of words, the
current one the least significant byte first and four bytes. -/
inductive FilterFormat where
  | legacy
  | current
  deriving DecidableEq, Repr, Inhabited

namespace FilterFormat

/-- The order of bytes of a format. -/
def encode (format : FilterFormat) (width value : Nat) : Bytes :=
  match format with
  | .legacy => Bytes.bigEndian width value
  | .current => Bytes.littleEndian width value

def decode (format : FilterFormat) (width : Nat) : Decoder FilterError Nat :=
  match format with
  | .legacy => Decoder.big width
  | .current => Decoder.little width

/-- The bytes of the number of words. -/
def countWidth : FilterFormat → Nat
  | .legacy => 8
  | .current => 4

end FilterFormat

namespace Bloom

/-- The fields of the stored form in order. -/
def storedFields (bloom : Bloom) (format : FilterFormat) : List Bytes :=
  format.encode 4 bloom.hashCount.toNat ::
    format.encode format.countWidth bloom.bits.words.size ::
      bloom.bits.words.toList.map fun word => format.encode 8 word.toNat

/-- The stored form. -/
def store (bloom : Bloom) (format : FilterFormat) : Bytes := (bloom.storedFields format).flatten

/-- The length of the stored form. -/
def storedSize (bloom : Bloom) (format : FilterFormat) : UInt64 :=
  4 + UInt64.ofNat format.countWidth + bloom.bits.byteSize

/-- Reads a stored filter and leaves what follows it. -/
def load (format : FilterFormat) : Decoder FilterError Bloom := do
  let hashCount := UInt32.ofNat (← format.decode 4)
  let count ← format.decode format.countWidth
  if hashing : 0 < hashCount ∧ hashCount ≤ maxHashCount then
    if 0 < count ∧ count ≤ maxFilterWords then
      let words ← Decoder.many (format.decode 8) count
      match Bits.ofWords? (words.map UInt64.ofNat).toArray with
      | some bits => pure ⟨hashCount, bits, hashing.1⟩
      | none => Decoder.fail (.corrupt (.wordCount (UInt64.ofNat count)))
    else Decoder.fail (.corrupt (.wordCount (UInt64.ofNat count)))
  else Decoder.fail (.corrupt (.hashCount hashCount))

end Bloom

end SortedTable

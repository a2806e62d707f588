import SortedTable.Filter.Sizing
import SortedTable.Filter.Stored

namespace SortedTable

inductive Filter where
  | alwaysPresent
  | bloom (held : Bloom)
  deriving DecidableEq, Inhabited

namespace Filter

/-- The filter for a table; without expected keys, or if any answer may be wrong, it admits every
key. -/
def forTable (elements : UInt64) (chance : Float) : Except FilterError Filter :=
  if 1.0 ≤ chance || elements = 0 then .ok .alwaysPresent
  else (Bloom.forElements elements chance).map .bloom

def add (filter : Filter) (hash : Murmur.Words) : Filter :=
  match filter with
  | .alwaysPresent => .alwaysPresent
  | .bloom held => .bloom (held.add hash)

/-- `false` means that the key was never added. -/
def isPresent (filter : Filter) (hash : Murmur.Words) : Bool :=
  match filter with
  | .alwaysPresent => true
  | .bloom held => held.isPresent hash

/-- Whether the answers carry any information. -/
def isInformative : Filter → Bool
  | .alwaysPresent => false
  | .bloom _ => true

/-- The memory of the bits in bytes. -/
def byteSize : Filter → UInt64
  | .alwaysPresent => 0
  | .bloom held => held.bits.byteSize

/-- The fields of the stored form; a filter that admits every key has none. -/
def storedFields (filter : Filter) (format : FilterFormat) : List Bytes :=
  match filter with
  | .alwaysPresent => []
  | .bloom held => held.storedFields format

def store (filter : Filter) (format : FilterFormat) : Bytes := (filter.storedFields format).flatten

def storedSize (filter : Filter) (format : FilterFormat) : UInt64 :=
  match filter with
  | .alwaysPresent => 0
  | .bloom held => held.storedSize format

/-- Reads a stored filter. -/
def load (format : FilterFormat) : Decoder FilterError Filter := .bloom <$> Bloom.load format

end Filter

end SortedTable

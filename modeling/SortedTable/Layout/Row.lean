import SortedTable.Layout.Clustering

namespace SortedTable

namespace Cell

/-- The flag of a cell without a value. -/
def tombstoneFlag : UInt8 := 1

/-- The flags of a cell and, unless it is a tombstone, its value behind its length. -/
def encodeValue : Option Bytes → Except IoError Bytes
  | some value => (withLength .cellValue 4 value).map (0 :: ·)
  | none => .ok [tombstoneFlag]

def encode (cell : Cell) : Except IoError Bytes := do
  let name ← withLength .columnName 2 (Bytes.ofText cell.column)
  let value ← encodeValue cell.value
  pure (name ++ Bytes.word64 cell.timestamp.toUInt64 ++ value)

def decode : Decoder TableError Cell := do
  let name ← takePart .data (← Decoder.little 2)
  match Bytes.text? name with
  | none => Decoder.fail (.corrupt .columnNotText)
  | some column =>
      let timestamp ← Decoder.int64
      let flags ← Decoder.word8
      if flags &&& tombstoneFlag != 0 then
        pure ⟨column, timestamp, none⟩
      else
        let value ← takePart .data (← Decoder.little 4)
        pure ⟨column, timestamp, some value⟩

end Cell

namespace Row

/-- The clustering, the deletion, the number of cells and the cells. -/
def encode (row : Row) : Except IoError Bytes := do
  let clustering ← row.clustering.encode
  let count ← lengthPrefix .cellCount 4 row.cells.length
  let cells ← row.cells.mapM Cell.encode
  pure (clustering ++ row.deletion.encode ++ count ++ cells.flatten)

/-- Reads a row and leaves what follows it. -/
def decodeFront : Decoder TableError Row := do
  let clustering ← Clustering.decode .data
  let deletion ← Deletion.decode
  let cells ← Decoder.many Cell.decode (← Decoder.little 4)
  pure (.ofCells clustering deletion cells)

/-- The row with exactly this body. -/
def decode (body : Bytes) : Except TableError Row :=
  match decodeFront body with
  | .error error => .error error
  | .ok (row, []) => .ok row
  | .ok (_, rest) => .error (.corrupt (.bytesBehindRow rest.length))

end Row

namespace Marker

/-- The code of a bound. -/
def boundCode : Bound → UInt8
  | .opening => 0
  | .closing => 1

def boundOfCode? (code : UInt8) : Option Bound :=
  if code = 0 then some .opening else if code = 1 then some .closing else none

theorem boundOfCode?_boundCode (bound : Bound) : boundOfCode? (boundCode bound) = some bound := by
  cases bound <;> rfl

def encode (marker : Marker) : Except IoError Bytes := do
  let clustering ← marker.clustering.encode
  pure (boundCode marker.bound :: clustering ++ marker.deletion.encode)

/-- Reads a marker and leaves what follows it. -/
def decodeFront : Decoder TableError Marker := do
  let code ← Decoder.word8
  let clustering ← Clustering.decode .data
  let deletion ← Deletion.decode
  match boundOfCode? code with
  | some bound => pure ⟨bound, clustering, deletion⟩
  | none => Decoder.fail (.corrupt (.unknownBound code))

/-- The marker at the front of a body; bytes behind it are not looked at. -/
def decode (body : Bytes) : Except TableError Marker := (decodeFront body).map Prod.fst

end Marker

end SortedTable

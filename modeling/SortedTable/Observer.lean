import SortedTable.Filter.Basic
import SortedTable.Partition

namespace SortedTable

/-- What an observer is told. -/
inductive Notice where
  /-- The writing begins; so many partitions are expected. -/
  | begin (expected : UInt64)
  /-- A partition begins: where it will stand in the data and where its entry in the index. -/
  | partition (key : Key) (dataPosition indexPosition : UInt64)
  | staticRow (row : Row)
  | element (content : Element)
  /-- The table is committed. -/
  | complete
  deriving DecidableEq

/-- Builds a filter of the keys. The filter counts only once the table is complete. -/
structure FilterBuilder where
  filter : Filter
  isComplete : Bool := false
  deriving Inhabited

namespace FilterBuilder

def observe (builder : FilterBuilder) : Notice → FilterBuilder
  | .partition key _ _ => { builder with filter := builder.filter.add key.hash }
  | .complete => { builder with isComplete := true }
  | _ => builder

/-- The filter of a complete table. -/
def result? (builder : FilterBuilder) : Option Filter :=
  if builder.isComplete then some builder.filter else none

end FilterBuilder

/-- The number of partitions and of cells that were written. -/
structure FlushCount where
  partitions : UInt64 := 0
  cells : UInt64 := 0
  deriving DecidableEq, Inhabited

namespace FlushCount

def observe (count : FlushCount) : Notice → FlushCount
  | .partition _ _ _ => { count with partitions := count.partitions + 1 }
  | .staticRow row => { count with cells := count.cells + UInt64.ofNat row.cells.length }
  | .element content => { count with cells := count.cells + UInt64.ofNat content.cells.length }
  | _ => count

end FlushCount

end SortedTable

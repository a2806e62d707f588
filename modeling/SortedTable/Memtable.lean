import Std.Data.TreeMap
import SortedTable.Partition

namespace SortedTable

/-- The number of bytes in the value of a cell. -/
def Cell.size (cell : Cell) : Nat := cell.value.elim 0 List.length

/-- The winning cell of each column. -/
abbrev Cells := Std.TreeMap String Cell

namespace Cells

/-- The cell that stays when a cell meets the one already in its column. -/
def winner (old : Option Cell) (cell : Cell) : Cell :=
  match old with
  | some old => if cell.timestamp ≤ old.timestamp then old else cell
  | none => cell

/-- Writes a cell. It replaces an older cell of its column; at equal times the first one stays. -/
def reconcile (cells : Cells) (cell : Cell) : Cells :=
  match cells[cell.column]? with
  | some old =>
      if cell.timestamp ≤ old.timestamp then cells else cells.insert cell.column cell
  | none => cells.insert cell.column cell

/-- The number of value bytes held after a cell was written, given the number before. -/
def reconciledSize (cells : Cells) (cell : Cell) (size : Nat) : Nat :=
  match cells[cell.column]? with
  | some old =>
      if cell.timestamp ≤ old.timestamp then size else size - old.size + cell.size
  | none => size + cell.size

theorem getElem?_reconcile (cells : Cells) (cell : Cell) (column : String) :
    (cells.reconcile cell)[column]? =
      if column = cell.column then some (winner cells[cell.column]? cell) else cells[column]? := by
  unfold reconcile winner
  by_cases same : column = cell.column
  · subst same
    split <;> rename_i held <;> simp only [held, if_true]
    · split <;> simp [*]
    · simp
  · have other : cell.column ≠ column := fun equal => same equal.symm
    split
    · split <;> simp [other, Std.TreeMap.getElem?_insert]
    · simp [same, other, Std.TreeMap.getElem?_insert]

/-- The cells in the order of their columns. -/
def toList (cells : Cells) : List Cell := (Std.TreeMap.toList cells).map Prod.snd

end Cells

/-- A deleted range of clusterings, both ends included. -/
structure DeletedRange where
  first : Clustering
  last : Clustering
  deletion : Deletion
  deriving DecidableEq, Inhabited

/-- The two markers of a deleted range. -/
def DeletedRange.markers (range : DeletedRange) : List Element :=
  [.marker ⟨.opening, range.first, range.deletion⟩, .marker ⟨.closing, range.last, range.deletion⟩]

/-- At equal clusterings an opening marker stands before the row and a closing one behind it. -/
def Element.rank : Element → Nat
  | .marker ⟨.opening, _, _⟩ => 0
  | .row _ => 1
  | .marker ⟨.closing, _, _⟩ => 2

/-- The order of elements goes by clustering and then by rank. -/
def Element.notAfter (left right : Element) : Bool :=
  ((compare left.clustering right.clustering).then (compare left.rank right.rank)).isLE

/-- What the buffer holds under one key; the ranges are in the order of their deletion. -/
structure Contents where
  deletion : Option Deletion := none
  staticCells : Cells := ∅
  rows : Std.TreeMap Clustering Cells := ∅
  ranges : List DeletedRange := []

namespace Contents

instance : Inhabited Contents := ⟨{}⟩

/-- The later of two deletions counts; at equal times the first one stays. -/
def delete (contents : Contents) (deletion : Deletion) : Contents :=
  match contents.deletion with
  | some old =>
      if deletion.markedAt ≤ old.markedAt then contents
      else { contents with deletion := some deletion }
  | none => { contents with deletion := some deletion }

/-- The markers of all ranges and then the rows. -/
def elements (contents : Contents) : List Element :=
  contents.ranges.flatMap DeletedRange.markers ++
    contents.rows.toList.map fun (clustering, cells) =>
      .row (.ofCells clustering .live cells.toList)

/-- The partition with these contents. Elements of the same place keep their order. -/
def partition (contents : Contents) (key : Key) : Partition where
  key := key
  deletion := contents.deletion.getD .live
  staticRow :=
    if contents.staticCells.isEmpty then none
    else some (.ofCells [] .live contents.staticCells.toList)
  elements := contents.elements.mergeSort Element.notAfter

end Contents

/-- The buffer: the contents of each key that was touched, and the number of value bytes in them. -/
structure Memtable where
  partitions : Std.TreeMap Key Contents := ∅
  approxSize : Nat := 0

namespace Memtable

def empty : Memtable := {}

instance : Inhabited Memtable := ⟨empty⟩

/-- The contents of a key; a key that was never touched has none. -/
def contents (memtable : Memtable) (key : Key) : Contents :=
  memtable.partitions.getD key {}

/-- Replaces the contents of a key. -/
def setContents (memtable : Memtable) (key : Key) (contents : Contents) : Memtable :=
  { memtable with partitions := memtable.partitions.insert key contents }

/-- Writes a cell of a row. -/
def put (memtable : Memtable) (key : Key) (clustering : Clustering) (cell : Cell) : Memtable :=
  let held := memtable.contents key
  let row := held.rows.getD clustering ∅
  { memtable.setContents key { held with rows := held.rows.insert clustering (row.reconcile cell) } with
    approxSize := row.reconciledSize cell memtable.approxSize }

/-- Writes a cell of the static row. -/
def putStatic (memtable : Memtable) (key : Key) (cell : Cell) : Memtable :=
  let held := memtable.contents key
  { memtable.setContents key { held with staticCells := held.staticCells.reconcile cell } with
    approxSize := held.staticCells.reconciledSize cell memtable.approxSize }

/-- Deletes all that was written under a key up to the time of the deletion. -/
def deletePartition (memtable : Memtable) (key : Key) (deletion : Deletion) : Memtable :=
  memtable.setContents key ((memtable.contents key).delete deletion)

/-- Deletes a range of clusterings. -/
def deleteRange (memtable : Memtable) (key : Key) (range : DeletedRange) : Memtable :=
  let held := memtable.contents key
  memtable.setContents key { held with ranges := held.ranges ++ [range] }

/-- The cell of a slot of a row. -/
def get? (memtable : Memtable) (key : Key) (clustering : Clustering) (column : String) :
    Option Cell := do
  let held ← memtable.partitions[key]?
  let row ← held.rows[clustering]?
  row[column]?

/-- The partition of a key that was touched. -/
def partition? (memtable : Memtable) (key : Key) : Option Partition :=
  memtable.partitions[key]?.map fun held => held.partition key

/-- The partitions in the order of their keys. -/
def toList (memtable : Memtable) : List Partition :=
  memtable.partitions.toList.map fun (key, held) => held.partition key

/-- The number of keys. -/
def size (memtable : Memtable) : Nat := memtable.partitions.size

def isEmpty (memtable : Memtable) : Bool := memtable.partitions.isEmpty

end Memtable

end SortedTable

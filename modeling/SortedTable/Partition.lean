import SortedTable.Key

namespace SortedTable

/-- When something was deleted: the write time of the deletion and the server time in seconds. -/
structure Deletion where
  markedAt : Int64
  localTime : Int32
  deriving DecidableEq, Repr

/-- No deletion at all. -/
def Deletion.live : Deletion := ⟨Int64.minValue, Int32.maxValue⟩

def Deletion.isLive (deletion : Deletion) : Bool := deletion = .live

instance : Inhabited Deletion := ⟨.live⟩

/-- The values that place a row inside its partition, the most significant one first. -/
abbrev Clustering := List Bytes

/-- A column with its write time. Without a value the cell is a tombstone. -/
structure Cell where
  column : String
  timestamp : Int64
  value : Option Bytes
  deriving DecidableEq, Repr, Inhabited

def Cell.isTombstone (cell : Cell) : Bool := cell.value.isNone

/-- The order of cells in a row goes by column. -/
def Cell.notAfter (left right : Cell) : Bool := (compare left.column right.column).isLE

theorem Cell.notAfter_trans (first second third : Cell) (left : first.notAfter second)
    (right : second.notAfter third) : first.notAfter third :=
  Std.TransCmp.isLE_trans left right

theorem Cell.notAfter_total (left right : Cell) :
    (left.notAfter right || right.notAfter left) = true := by
  unfold notAfter
  rw [@Std.OrientedCmp.eq_swap String compare _ right.column left.column]
  cases compare left.column right.column <;> rfl

/-- The cells of one clustering, in the order of their columns, and the deletion of the row. -/
structure Row where
  clustering : Clustering
  deletion : Deletion
  cells : List Cell
  ordered : cells.Pairwise fun left right => left.notAfter right
  deriving DecidableEq

/-- Cells of the same column keep their order. -/
def Row.ofCells (clustering : Clustering) (deletion : Deletion) (cells : List Cell) : Row where
  clustering := clustering
  deletion := deletion
  cells := cells.mergeSort Cell.notAfter
  ordered := List.pairwise_mergeSort Cell.notAfter_trans Cell.notAfter_total cells

instance : Inhabited Row := ⟨.ofCells [] .live []⟩

/-- An ordered list of cells is taken as it is. -/
theorem Row.ofCells_cells (row : Row) : Row.ofCells row.clustering row.deletion row.cells = row := by
  obtain ⟨clustering, deletion, cells, ordered⟩ := row
  simp [ofCells, List.mergeSort_of_pairwise ordered]

/-- A row is empty if it has neither cells nor a deletion. -/
def Row.isEmpty (row : Row) : Bool := row.cells.isEmpty && row.deletion.isLive

/-- Which end of a deleted range a marker stands at. -/
inductive Bound where
  | opening
  | closing
  deriving DecidableEq, Repr, Inhabited

/-- One end of a deleted range of clusterings. -/
structure Marker where
  bound : Bound
  clustering : Clustering
  deletion : Deletion
  deriving DecidableEq, Repr, Inhabited

/-- A clustered element of a partition. -/
inductive Element where
  | row (content : Row)
  | marker (content : Marker)
  deriving DecidableEq, Inhabited

def Element.clustering : Element → Clustering
  | .row content => content.clustering
  | .marker content => content.clustering

/-- The cells of an element; a marker has none. -/
def Element.cells : Element → List Cell
  | .row content => content.cells
  | .marker _ => []

/-- All that is stored under a key. -/
structure Partition where
  key : Key
  deletion : Deletion := .live
  staticRow : Option Row := none
  elements : List Element := []
  deriving DecidableEq, Inhabited

/-- Nothing of an empty partition would be written. -/
def Partition.isEmpty (partition : Partition) : Bool :=
  partition.deletion.isLive && partition.staticRow.all Row.isEmpty && partition.elements.isEmpty

/-- The cells of the static row and then those of the rows. -/
def Partition.cells (partition : Partition) : List Cell :=
  (partition.staticRow.elim [] Row.cells) ++ partition.elements.flatMap Element.cells

/-- An empty static row counts as none. -/
def Partition.normalized (partition : Partition) : Partition :=
  { partition with staticRow := partition.staticRow.filter fun row => !row.isEmpty }

end SortedTable

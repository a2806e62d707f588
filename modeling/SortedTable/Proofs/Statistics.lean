import SortedTable.Statistics

namespace SortedTable

namespace Statistics

/-- The number of partitions and the keys of the first and of the last one. -/
def ends (statistics : Statistics) : UInt64 × Bytes × Bytes :=
  (statistics.partitions, statistics.firstKey, statistics.lastKey)

theorem ends_addDeletion (statistics : Statistics) (deletion : Deletion) :
    (statistics.addDeletion deletion).ends = statistics.ends := by
  unfold addDeletion
  split <;> rfl

theorem ends_addRow (statistics : Statistics) (row : Row) :
    (statistics.addRow row).ends = statistics.ends := by
  have cells (cells : List Cell) (statistics : Statistics) :
      (cells.foldl addCell statistics).ends = statistics.ends := by
    induction cells generalizing statistics with
    | nil => rfl
    | cons cell rest ih => exact ih _
  exact (cells row.cells _).trans (ends_addDeletion _ row.deletion)

theorem ends_addElement (statistics : Statistics) (element : Element) :
    (statistics.addElement element).ends = statistics.ends := by
  cases element with
  | row content => exact statistics.ends_addRow content
  | marker content => rfl

/-- A partition counts as one, and its key becomes the last one. -/
theorem ends_add (statistics : Statistics) (partition : Partition) :
    (statistics.add partition).ends = (statistics.addKey partition.key).ends := by
  have elements (elements : List Element) (statistics : Statistics) :
      (elements.foldl addElement statistics).ends = statistics.ends := by
    induction elements generalizing statistics with
    | nil => rfl
    | cons element rest ih => exact (ih _).trans (ends_addElement _ element)
  unfold add
  dsimp only
  rw [elements]
  cases partition.staticRow with
  | none => exact ends_addDeletion _ partition.deletion
  | some row => exact (ends_addRow _ row).trans (ends_addDeletion _ partition.deletion)

theorem partitions_add (statistics : Statistics) (partition : Partition) :
    (statistics.add partition).partitions = statistics.partitions + 1 :=
  congrArg Prod.fst (ends_add statistics partition)

/-- Counts further rows, of which nothing else is known. -/
def addRows (statistics : Statistics) (count : UInt64) : Statistics :=
  { statistics with rows := statistics.rows + count }

@[simp]
theorem addRows_zero (statistics : Statistics) : statistics.addRows 0 = statistics := by
  simp [addRows]

@[simp]
theorem addRows_addRows (statistics : Statistics) (first second : UInt64) :
    (statistics.addRows first).addRows second = statistics.addRows (first + second) := by
  simp [addRows, UInt64.add_assoc]

/-- Rows are counted alike before and after a deletion. -/
theorem addDeletion_addRows (statistics : Statistics) (count : UInt64) (deletion : Deletion) :
    (statistics.addRows count).addDeletion deletion =
      (statistics.addDeletion deletion).addRows count := by
  unfold addDeletion
  split <;> rfl

theorem addRow_addRows (statistics : Statistics) (count : UInt64) (row : Row) :
    (statistics.addRows count).addRow row = (statistics.addRow row).addRows count := by
  have one : (statistics.addRows count).addRows 1 = (statistics.addRows 1).addRows count := by
    rw [addRows_addRows, addRows_addRows, UInt64.add_comm]
  change row.cells.foldl addCell (((statistics.addRows count).addRows 1).addDeletion row.deletion) =
    (row.cells.foldl addCell ((statistics.addRows 1).addDeletion row.deletion)).addRows count
  rw [one, addDeletion_addRows]
  exact List.foldl_hom (addRows · count) fun _ _ => rfl

theorem addElement_addRows (statistics : Statistics) (count : UInt64) (element : Element) :
    (statistics.addRows count).addElement element =
      (statistics.addElement element).addRows count := by
  cases element with
  | row content => exact addRow_addRows statistics count content
  | marker content => rfl

/-- Rows are counted alike before and after the elements of a partition. -/
theorem foldl_addElement_addRows (elements : List Element) (statistics : Statistics)
    (count : UInt64) : elements.foldl addElement (statistics.addRows count) =
      (elements.foldl addElement statistics).addRows count :=
  List.foldl_hom (addRows · count) fun statistics element =>
    addElement_addRows statistics count element

/-- Rows are counted alike before and after a partition. -/
theorem add_addRows (statistics : Statistics) (count : UInt64) (partition : Partition) :
    (statistics.addRows count).add partition = (statistics.add partition).addRows count := by
  have key : ((statistics.addRows count).addKey partition.key).addDeletion partition.deletion =
      ((statistics.addKey partition.key).addDeletion partition.deletion).addRows count :=
    addDeletion_addRows (statistics.addKey partition.key) count partition.deletion
  unfold add
  dsimp only
  rw [key, ← foldl_addElement_addRows]
  cases partition.staticRow with
  | none => rfl
  | some row => exact congrArg (partition.elements.foldl addElement ·) (addRow_addRows _ count row)

/-- All that is counted of an empty row is the row. -/
theorem addRow_of_isEmpty {row : Row} (empty : row.isEmpty = true) (statistics : Statistics) :
    statistics.addRow row = statistics.addRows 1 := by
  obtain ⟨cells, live⟩ := Bool.and_eq_true_iff.1 empty
  rw [addRow, List.isEmpty_iff.1 cells, addDeletion, if_pos live]
  rfl

end Statistics

/-- The partition has a static row with nothing in it. -/
def Partition.hasEmptyStaticRow (partition : Partition) : Bool := partition.staticRow.any Row.isEmpty

namespace Statistics

/-- A partition counts as what is written of it, and its static row besides if this is empty. -/
theorem add_eq_add_normalized (statistics : Statistics) (partition : Partition) :
    statistics.add partition = (statistics.add partition.normalized).addRows
      (if partition.hasEmptyStaticRow then 1 else 0) := by
  unfold add Partition.normalized Partition.hasEmptyStaticRow
  dsimp only
  cases partition.staticRow with
  | none => simp
  | some row =>
      cases empty : row.isEmpty with
      | false => simp [Option.filter, empty]
      | true =>
          simp [Option.filter, empty, addRow_of_isEmpty empty, foldl_addElement_addRows]

/-- Of partitions more is counted than of what is written of them: the static rows that are empty. -/
theorem foldl_add_eq (partitions : List Partition) (statistics : Statistics) :
    partitions.foldl add statistics =
      ((partitions.map Partition.normalized).foldl add statistics).addRows
        (.ofNat (partitions.countP Partition.hasEmptyStaticRow)) := by
  induction partitions generalizing statistics with
  | nil => exact (addRows_zero _).symm
  | cons partition rest ih =>
      have later (statistics : Statistics) (count : UInt64) :
          (rest.map Partition.normalized).foldl add (statistics.addRows count) =
            ((rest.map Partition.normalized).foldl add statistics).addRows count :=
        List.foldl_hom (addRows · count) fun statistics partition =>
          add_addRows statistics count partition
      rw [List.foldl_cons, ih, add_eq_add_normalized, later, addRows_addRows, List.map_cons,
        List.foldl_cons, List.countP_cons]
      congr 1
      split <;> simp [UInt64.add_comm]

end Statistics

end SortedTable

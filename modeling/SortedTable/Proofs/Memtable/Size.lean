import Mathlib.Algebra.BigOperators.Group.List.Basic
import Mathlib.Data.Nat.Bitwise
import SortedTable.Proofs.Memtable.History

namespace SortedTable

section

variable {K V : Type} [Ord K] (weight : V → Nat) (map : Std.TreeMap K V) (key : K)

/-- The weights of all values of a map together. -/
def weigh : Nat := (map.toList.map fun entry => weight entry.2).sum

theorem weigh_empty : weigh weight (∅ : Std.TreeMap K V) = 0 := rfl

variable [Std.TransOrd K]

theorem elim_eq_getD {fallback : V} (none : weight fallback = 0) :
    map[key]?.elim 0 weight = weight (map.getD key fallback) := by
  rw [Std.TreeMap.getD_eq_getD_getElem?]
  cases map[key]? with
  | none => exact none.symm
  | some value => rfl

variable [Std.LawfulEqOrd K] [DecidableEq K]

/-- The entry of a key and the entries of the other keys. -/
theorem weigh_eq :
    weigh weight map = map[key]?.elim 0 weight +
      ((map.toList.filter fun entry => !decide (entry.1 = key)).map fun entry => weight entry.2).sum := by
  rw [weigh, ← ((List.filter_append_perm (fun entry => decide (entry.1 = key)) map.toList).map
    fun entry => weight entry.2).sum_eq, List.map_append, List.sum_append, filter_key_toList]
  cases map[key]? <;> simp

theorem weigh_insert (value : V) :
    weigh weight (map.insert key value) + map[key]?.elim 0 weight =
      weigh weight map + weight value := by
  have others : (map.toList.filter fun entry => decide ¬ (key == entry.1) = true) =
      map.toList.filter fun entry => !decide (entry.1 = key) := by
    apply List.filter_congr
    intro entry _
    by_cases same : entry.1 = key
    · simp [same]
    · simp [same, Ne.symm same]
  rw [weigh_eq weight map key, weigh, (Std.TreeMap.toList_insert_perm.map _).sum_eq, List.map_cons,
    List.sum_cons, others]
  dsimp only
  omega

theorem elim_le_weigh : map[key]?.elim 0 weight ≤ weigh weight map := by
  rw [weigh_eq weight map key]
  exact Nat.le_add_right _ _

end

namespace Cells

/-- The number of value bytes. -/
def size (cells : Cells) : Nat := weigh Cell.size cells

theorem size_empty : size ∅ = 0 := weigh_empty _

/-- The counter moves by as much as the cells do, if it counted them before. -/
theorem reconciledSize_add {cells : Cells} {counted : Nat} (covered : cells.size ≤ counted) (cell : Cell) :
    cells.reconciledSize cell counted + cells.size = counted + (cells.reconcile cell).size := by
  have inserted := weigh_insert Cell.size cells cell.column cell
  have within := elim_le_weigh Cell.size cells cell.column
  unfold size at covered ⊢
  unfold reconciledSize reconcile
  cases held : cells[cell.column]? with
  | none =>
      rw [held] at inserted
      simp only [Option.elim_none] at inserted ⊢
      omega
  | some old =>
      rw [held] at inserted within
      simp only [Option.elim_some] at inserted within ⊢
      split <;> omega

theorem reconciledSize_le (cells : Cells) (cell : Cell) (counted : Nat) :
    cells.reconciledSize cell counted ≤ counted + cell.size := by
  unfold reconciledSize
  split
  · split <;> omega
  · exact Nat.le_refl _

end Cells

namespace Contents

/-- The number of value bytes. -/
def size (contents : Contents) : Nat := contents.staticCells.size + weigh Cells.size contents.rows

variable (contents : Contents)

theorem size_empty : size {} = 0 := by
  rw [size, Cells.size_empty, weigh_empty]

theorem size_row_le (clustering : Clustering) :
    (contents.rows.getD clustering ∅).size ≤ contents.size := by
  rw [← elim_eq_getD Cells.size contents.rows clustering Cells.size_empty]
  exact Nat.le_add_left_of_le (elim_le_weigh Cells.size contents.rows clustering)

theorem size_writeRow (clustering : Clustering) (cell : Cell) :
    (contents.writeRow clustering cell).size + (contents.rows.getD clustering ∅).size =
      contents.size + ((contents.rows.getD clustering ∅).reconcile cell).size := by
  have inserted := weigh_insert Cells.size contents.rows clustering
    ((contents.rows.getD clustering ∅).reconcile cell)
  rw [elim_eq_getD Cells.size contents.rows clustering Cells.size_empty] at inserted
  show contents.staticCells.size + weigh Cells.size (contents.rows.insert clustering _) + _ = _
  rw [size]
  omega

theorem size_writeStatic (cell : Cell) :
    (contents.writeStatic cell).size + contents.staticCells.size =
      contents.size + (contents.staticCells.reconcile cell).size := by
  show (contents.staticCells.reconcile cell).size + weigh Cells.size contents.rows + _ = _
  rw [size]
  omega

theorem size_delete (deletion : Deletion) : (contents.delete deletion).size = contents.size := by
  rw [delete_eq]
  rfl

theorem size_cell?_le (slot : Slot) : (contents.cell? slot).elim 0 Cell.size ≤ contents.size := by
  unfold cell?
  split
  · split
    · exact Nat.le_add_right_of_le (elim_le_weigh Cell.size contents.staticCells slot.column)
    · exact Nat.zero_le _
  · exact (elim_le_weigh Cell.size _ slot.column).trans (contents.size_row_le slot.clustering)

end Contents

/-- The value bytes of cells are those of the cells that have a value. -/
theorem sum_size (cells : List Cell) :
    (cells.map Cell.size).sum = ((cells.filterMap Cell.value).map List.length).sum := by
  induction cells with
  | nil => rfl
  | cons cell rest inductive_step =>
      rw [List.map_cons, List.sum_cons, inductive_step, Cell.size]
      cases held : cell.value <;> simp [held]

theorem sum_flatMap {α : Type} (items : List α) (cells : α → List Cell) :
    ((items.flatMap cells).map Cell.size).sum =
      (items.map fun item => ((cells item).map Cell.size).sum).sum := by
  rw [List.map_flatMap, List.flatMap_def, List.sum_flatten, List.map_map]
  rfl

theorem Cells.sum_toList (cells : Cells) : (cells.toList.map Cell.size).sum = cells.size := by
  rw [toList, List.map_map]
  rfl

/-- The cells of a partition are those of the contents. -/
theorem Contents.sum_cells_partition (contents : Contents) (key : Key) :
    ((contents.partition key).cells.map Cell.size).sum = contents.size := by
  have row (clustering : Clustering) (cells : Cells) :
      ((Row.ofCells clustering .live cells.toList).cells.map Cell.size).sum = cells.size := by
    rw [Row.ofCells, ((List.mergeSort_perm _ _).map _).sum_eq, cells.sum_toList]
  have static : (((contents.partition key).staticRow.elim [] Row.cells).map Cell.size).sum =
      contents.staticCells.size := by
    rw [partition]
    by_cases empty : contents.staticCells.isEmpty
    · rw [if_pos empty, ← Cells.sum_toList, Cells.toList, List.isEmpty_iff.1 (Std.TreeMap.isEmpty_toList.trans empty)]
      rfl
    · rw [if_neg empty]
      exact row [] contents.staticCells
  have markers : (contents.ranges.flatMap DeletedRange.markers).flatMap Element.cells = [] := by
    rw [List.flatMap_assoc, List.flatMap_eq_nil_iff]
    intro range _
    rfl
  have rows : (((contents.partition key).elements.flatMap Element.cells).map Cell.size).sum =
      weigh Cells.size contents.rows := by
    rw [partition, (((List.mergeSort_perm _ _).flatMap_right _).map _).sum_eq, elements,
      List.flatMap_append, markers, List.nil_append, sum_flatMap, List.map_map, weigh]
    congr 1
    apply List.map_congr_left
    intro entry _
    exact row entry.1 entry.2
  rw [Partition.cells, List.map_append, List.sum_append, static, rows, size]

namespace Memtable

/-- The number of bytes in the value that an operation writes. -/
def Operation.size : Operation → Nat
  | .put _ _ cell | .putStatic _ cell => cell.size
  | .deletePartition _ _ | .deleteRange _ _ | .clear => 0

/-- The counter is the bytes in the values of the cells, enough for each and no more than was
written. -/
structure Accounts (memtable : Memtable) (history : List Operation) : Prop where
  exact : memtable.approxSize =
    (((memtable.toList.flatMap Partition.cells).filterMap Cell.value).map List.length).sum
  covers : ∀ key slot, ((memtable.contents key).cell? slot).elim 0 Cell.size ≤ memtable.approxSize
  bounded : memtable.approxSize ≤ (history.map Operation.size).sum

/-- The number of value bytes under all keys. -/
def held (memtable : Memtable) : Nat := weigh Contents.size memtable.partitions

theorem sum_cells_toList (memtable : Memtable) :
    ((memtable.toList.flatMap Partition.cells).map Cell.size).sum = memtable.held := by
  rw [sum_flatMap, toList, List.map_map, held, weigh]
  congr 1
  apply List.map_congr_left
  intro entry _
  exact entry.2.sum_cells_partition entry.1

theorem size_contents_le (memtable : Memtable) (key : Key) :
    (memtable.contents key).size ≤ memtable.held := by
  rw [contents, ← elim_eq_getD Contents.size memtable.partitions key Contents.size_empty]
  exact elim_le_weigh Contents.size memtable.partitions key

theorem held_of_insert {memtable later : Memtable} {key : Key} {next : Contents}
    (set : later.partitions = memtable.partitions.insert key next) :
    later.held + (memtable.contents key).size = memtable.held + next.size := by
  have inserted := weigh_insert Contents.size memtable.partitions key next
  rw [elim_eq_getD Contents.size memtable.partitions key Contents.size_empty] at inserted
  rw [held, set]
  exact inserted

/-- One operation keeps the counter exact, and adds at most what it writes. -/
theorem approxSize_perform {memtable : Memtable} (exact : memtable.approxSize = memtable.held)
    (operation : Operation) :
    (memtable.perform operation).approxSize = (memtable.perform operation).held ∧
      (memtable.perform operation).approxSize ≤ memtable.approxSize + operation.size := by
  cases operation with
  | put key clustering cell =>
      have moved := held_of_insert (memtable.partitions_put key clustering cell)
      have changed := (memtable.contents key).size_writeRow clustering cell
      have covered : ((memtable.contents key).rows.getD clustering ∅).size ≤ memtable.approxSize :=
        exact ▸ ((memtable.contents key).size_row_le clustering).trans (memtable.size_contents_le key)
      have counted := Cells.reconciledSize_add covered cell
      refine ⟨?_, Cells.reconciledSize_le _ cell memtable.approxSize⟩
      show Cells.reconciledSize _ cell memtable.approxSize = (memtable.put key clustering cell).held
      omega
  | putStatic key cell =>
      have moved := held_of_insert (memtable.partitions_putStatic key cell)
      have changed := (memtable.contents key).size_writeStatic cell
      have covered : (memtable.contents key).staticCells.size ≤ memtable.approxSize :=
        exact ▸ (Nat.le_add_right _ _).trans (memtable.size_contents_le key)
      have counted := Cells.reconciledSize_add covered cell
      refine ⟨?_, Cells.reconciledSize_le _ cell memtable.approxSize⟩
      show Cells.reconciledSize _ cell memtable.approxSize = (memtable.putStatic key cell).held
      omega
  | deletePartition key deletion =>
      have moved := held_of_insert (memtable.partitions_deletePartition key deletion)
      rw [Contents.size_delete] at moved
      refine ⟨?_, Nat.le_refl _⟩
      show memtable.approxSize = (memtable.deletePartition key deletion).held
      omega
  | deleteRange key range =>
      have moved := held_of_insert (memtable.partitions_deleteRange key range)
      -- The ranges have no value bytes.
      exact ⟨exact.trans (Nat.add_right_cancel moved).symm, Nat.le_refl _⟩
  | clear => exact ⟨rfl, Nat.zero_le _⟩

theorem approxSize_performAll (history : List Operation) :
    (empty.performAll history).approxSize = (empty.performAll history).held ∧
      (empty.performAll history).approxSize ≤ (history.map Operation.size).sum := by
  induction history using List.reverseRecOn with
  | nil => exact ⟨rfl, Nat.zero_le _⟩
  | append_singleton history operation inductive_step =>
      obtain ⟨exact, bounded⟩ := inductive_step
      obtain ⟨exact', bounded'⟩ := approxSize_perform exact operation
      rw [performAll, List.foldl_concat, ← performAll, List.map_append, List.sum_append]
      exact ⟨exact', bounded'.trans (Nat.add_le_add_right bounded _)⟩

/-- After any operations the counter of the buffer is right. -/
theorem accounts_performAll (history : List Operation) :
    (empty.performAll history).Accounts history where
  exact := by
    rw [← sum_size, sum_cells_toList]
    exact (approxSize_performAll history).1
  covers key slot := by
    rw [(approxSize_performAll history).1]
    exact (Contents.size_cell?_le _ slot).trans (size_contents_le _ key)
  bounded := (approxSize_performAll history).2

end Memtable

end SortedTable

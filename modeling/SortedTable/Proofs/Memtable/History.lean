import Mathlib.Data.List.DropRight
import SortedTable.Memtable.Operation
import SortedTable.Proofs.Memtable.Elements
import SortedTable.Proofs.Memtable.Newest

namespace SortedTable

theorem filterMap_concat {α β : Type} (f : α → Option β) (front : List α) (last : α) :
    (front ++ [last]).filterMap f = front.filterMap f ++ (f last).toList := by
  rw [List.filterMap_append, List.filterMap_cons, List.filterMap_nil]
  cases f last <;> rfl

namespace Memtable

namespace Operation

/-- The cell that is put into a row of a key. -/
def cell? (key : Key) (clustering : Clustering) : Operation → Option Cell
  | .put key' clustering' cell => if key' = key ∧ clustering' = clustering then some cell else none
  | _ => none

/-- The cell that is put into the static row of a key. -/
def staticCell? (key : Key) : Operation → Option Cell
  | .putStatic key' cell => if key' = key then some cell else none
  | _ => none

/-- The deletion of a key. -/
def deletion? (key : Key) : Operation → Option Deletion
  | .deletePartition key' deletion => if key' = key then some deletion else none
  | _ => none

/-- The range that is deleted under a key. -/
def range? (key : Key) : Operation → Option DeletedRange
  | .deleteRange key' range => if key' = key then some range else none
  | _ => none

/-- What an operation does to the contents of its key. -/
def change (contents : Contents) : Operation → Contents
  | .put _ clustering cell => contents.writeRow clustering cell
  | .putStatic _ cell => contents.writeStatic cell
  | .deletePartition _ deletion => contents.delete deletion
  | .deleteRange _ range => { contents with ranges := contents.ranges ++ [range] }
  | .clear => contents

end Operation

/-- The operations behind the last clearing. -/
def sinceClear (history : List Operation) : List Operation :=
  history.rtakeWhile fun operation => operation.key?.isSome

/-- The cells that were put into a row, in the order of the operations. -/
def cellsOf (history : List Operation) (key : Key) (clustering : Clustering) : List Cell :=
  history.filterMap (Operation.cell? key clustering)

def staticCellsOf (history : List Operation) (key : Key) : List Cell :=
  history.filterMap (Operation.staticCell? key)

def deletionsOf (history : List Operation) (key : Key) : List Deletion :=
  history.filterMap (Operation.deletion? key)

def rangesOf (history : List Operation) (key : Key) : List DeletedRange :=
  history.filterMap (Operation.range? key)

section

variable (history : List Operation) (operation : Operation) (key : Key)

theorem cellsOf_concat (clustering : Clustering) :
    cellsOf (history ++ [operation]) key clustering =
      cellsOf history key clustering ++ (operation.cell? key clustering).toList :=
  filterMap_concat _ history operation

theorem staticCellsOf_concat :
    staticCellsOf (history ++ [operation]) key =
      staticCellsOf history key ++ (operation.staticCell? key).toList :=
  filterMap_concat _ history operation

theorem deletionsOf_concat :
    deletionsOf (history ++ [operation]) key =
      deletionsOf history key ++ (operation.deletion? key).toList :=
  filterMap_concat _ history operation

theorem rangesOf_concat :
    rangesOf (history ++ [operation]) key =
      rangesOf history key ++ (operation.range? key).toList :=
  filterMap_concat _ history operation

end

/-- Some operation touched the key. -/
def IsTouched (history : List Operation) (key : Key) : Prop :=
  ∃ operation ∈ history, operation.key? = some key

theorem partitions_perform (memtable : Memtable) {operation : Operation} {key : Key}
    (touches : operation.key? = some key) :
    (memtable.perform operation).partitions =
      memtable.partitions.insert key (operation.change (memtable.contents key)) := by
  cases operation <;> cases touches <;> rfl

end Memtable

theorem Contents.delete_eq (contents : Contents) (deletion : Deletion) :
    contents.delete deletion =
      { contents with deletion := some (later Deletion.markedAt contents.deletion deletion) } := by
  obtain ⟨old, staticCells, rows, ranges⟩ := contents
  cases old with
  | none => rfl
  | some old =>
      unfold delete later
      dsimp only
      split <;> rfl

open Memtable

/-- The contents of a key are what the history says. -/
structure Contents.Recalls (contents : Contents) (history : List Operation) (key : Key) : Prop where
  deletion : contents.deletion = newestDeletion (deletionsOf history key)
  staticCells : ∀ column, contents.staticCells[column]? = newest (staticCellsOf history key) column
  rows : ∀ clustering, clustering ∈ contents.rows ↔ cellsOf history key clustering ≠ []
  cells : ∀ clustering column,
    (contents.rows.getD clustering ∅)[column]? = newest (cellsOf history key clustering) column
  ranges : contents.ranges = rangesOf history key

namespace Contents.Recalls

variable {contents : Contents} {history : List Operation} {key : Key}

theorem empty (key : Key) : ({} : Contents).Recalls [] key where
  deletion := rfl
  staticCells _ := Std.TreeMap.getElem?_emptyc
  rows clustering := by simp [cellsOf]
  cells clustering column := by
    rw [Std.TreeMap.getD_emptyc, Std.TreeMap.getElem?_emptyc]
    rfl
  ranges := rfl

/-- An operation on another key says nothing about this one. -/
theorem skip (recalls : contents.Recalls history key) {operation : Operation}
    (other : operation.key? ≠ some key) : contents.Recalls (history ++ [operation]) key := by
  have cells (clustering : Clustering) :
      cellsOf (history ++ [operation]) key clustering = cellsOf history key clustering := by
    rw [cellsOf_concat]
    cases operation <;> simp_all [Operation.cell?, Operation.key?]
  have static : staticCellsOf (history ++ [operation]) key = staticCellsOf history key := by
    rw [staticCellsOf_concat]
    cases operation <;> simp_all [Operation.staticCell?, Operation.key?]
  have deletions : deletionsOf (history ++ [operation]) key = deletionsOf history key := by
    rw [deletionsOf_concat]
    cases operation <;> simp_all [Operation.deletion?, Operation.key?]
  have ranges : rangesOf (history ++ [operation]) key = rangesOf history key := by
    rw [rangesOf_concat]
    cases operation <;> simp_all [Operation.range?, Operation.key?]
  constructor
  · rw [deletions]
    exact recalls.deletion
  · rw [static]
    exact recalls.staticCells
  · simp only [cells]
    exact recalls.rows
  · simp only [cells]
    exact recalls.cells
  · rw [ranges]
    exact recalls.ranges

/-- An operation on the key changes the contents as it changes what the history says. -/
theorem change (recalls : contents.Recalls history key) {operation : Operation}
    (touches : operation.key? = some key) :
    (operation.change contents).Recalls (history ++ [operation]) key where
  deletion := by
    rw [deletionsOf_concat]
    cases operation with
    | deletePartition key' deletion =>
        cases touches
        rw [Operation.change, delete_eq, Operation.deletion?, if_pos rfl, Option.toList_some,
          newestDeletion, firstLatest_concat, ← newestDeletion, ← recalls.deletion]
    | _ =>
        simpa [Operation.change, writeRow, writeStatic, delete_eq, Operation.deletion?]
          using recalls.deletion
  staticCells column := by
    rw [staticCellsOf_concat]
    cases operation with
    | putStatic key' cell =>
        cases touches
        rw [Operation.staticCell?, if_pos rfl, Option.toList_some, newest_concat,
          ← recalls.staticCells, ← recalls.staticCells]
        exact Cells.getElem?_reconcile contents.staticCells cell column
    | _ =>
        simpa [Operation.change, writeRow, writeStatic, delete_eq, Operation.staticCell?]
          using recalls.staticCells column
  rows clustering := by
    rw [cellsOf_concat]
    cases operation with
    | put key' clustering' cell =>
        cases touches
        rw [Operation.change, Contents.writeRow, Std.TreeMap.mem_insert, recalls.rows]
        by_cases same : clustering' = clustering <;> simp [Operation.cell?, same]
    | _ =>
        simpa [Operation.change, writeRow, writeStatic, delete_eq, Operation.cell?]
          using recalls.rows clustering
  cells clustering column := by
    rw [cellsOf_concat]
    cases operation with
    | put key' clustering' cell =>
        cases touches
        rw [Operation.change, getD_rows_writeRow, Operation.cell?]
        by_cases same : clustering' = clustering
        · subst same
          rw [if_pos rfl, if_pos ⟨rfl, rfl⟩, Option.toList_some, newest_concat,
            Cells.getElem?_reconcile, recalls.cells, recalls.cells]
        · rw [if_neg same, if_neg fun both => same both.2, Option.toList_none, List.append_nil,
            recalls.cells]
    | _ =>
        simpa [Operation.change, writeRow, writeStatic, delete_eq, Operation.cell?]
          using recalls.cells clustering column
  ranges := by
    rw [rangesOf_concat]
    cases operation with
    | deleteRange key' range =>
        cases touches
        rw [Operation.range?, if_pos rfl, ← recalls.ranges]
        rfl
    | _ =>
        simpa [Operation.change, writeRow, writeStatic, delete_eq, Operation.range?]
          using recalls.ranges

end Contents.Recalls

namespace Memtable

theorem isTouched_concat {history : List Operation} {operation : Operation} {key : Key} :
    IsTouched (history ++ [operation]) key ↔
      IsTouched history key ∨ operation.key? = some key := by
  simp only [IsTouched, List.mem_append, List.mem_singleton, or_and_right, exists_or,
    exists_eq_left]

/-- The keys and their contents are what the operations say. -/
structure Holds (memtable : Memtable) (history : List Operation) : Prop where
  contents : ∀ key, (memtable.contents key).Recalls history key
  keys : ∀ key, key ∈ memtable.partitions ↔ IsTouched history key

theorem holds_empty : empty.Holds [] where
  contents key := by
    rw [empty, contents_empty]
    exact .empty key
  keys key := by simp [empty, IsTouched]

theorem Holds.perform {memtable : Memtable} {history : List Operation}
    (holds : memtable.Holds history) {operation : Operation} {key : Key}
    (touches : operation.key? = some key) :
    (memtable.perform operation).Holds (history ++ [operation]) where
  contents other := by
    rw [contents_of_insert (partitions_perform memtable touches)]
    by_cases same : key = other
    · subst same
      rw [if_pos rfl]
      exact (holds.contents key).change touches
    · rw [if_neg same]
      exact (holds.contents other).skip fun also => same (Option.some.inj (touches.symm.trans also))
  keys other := by
    rw [partitions_perform memtable touches, Std.TreeMap.mem_insert, isTouched_concat,
      holds.keys, touches, Std.LawfulEqOrd.compare_eq_iff_eq, Option.some.injEq, or_comm]

/-- The keys of the buffer and their contents are what the operations since the last clearing say. -/
theorem holds_performAll (history : List Operation) :
    (empty.performAll history).Holds (sinceClear history) := by
  induction history using List.reverseRecOn with
  | nil => exact holds_empty
  | append_singleton history operation inductive_step =>
      rw [sinceClear, List.rtakeWhile_concat, ← sinceClear, performAll, List.foldl_concat,
        ← performAll]
      cases touches : operation.key? with
      | none =>
          cases operation <;> cases touches
          exact holds_empty
      | some key => exact inductive_step.perform touches

end Memtable

/-- A row shows the newest of the cells that were written for each column, in the order of the columns. -/
structure Row.Shows (row : Row) (clustering : Clustering) (written : List Cell) : Prop where
  nonempty : written ≠ []
  clustering : row.clustering = clustering
  deletion : row.deletion = .live
  ordered : row.cells.Pairwise fun left right => compare left.column right.column = .lt
  cells : ∀ cell, cell ∈ row.cells ↔ newest written cell.column = some cell

/-- There is a row exactly if something was written, and it shows what was written. -/
def ShowsRow (row? : Option Row) (clustering : Clustering) (written : List Cell) : Prop :=
  row?.elim (written = []) fun row => row.Shows clustering written

/-- A partition is what the operations on its key say. -/
structure Partition.Recalls (partition : Partition) (history : List Operation) : Prop where
  deletion : partition.deletion =
    (newestDeletion (deletionsOf history partition.key)).getD .live
  staticRow : ShowsRow partition.staticRow [] (staticCellsOf history partition.key)
  ascending : partition.elements.Pairwise fun left right =>
    (compare left.clustering right.clustering).isLE
  elements : ∀ clustering, ∃ row? : Option Row,
    ShowsRow row? clustering (cellsOf history partition.key clustering) ∧
      partition.elements.filter (fun element => element.clustering = clustering) =
        ((rangesOf history partition.key).filter fun range => range.first = clustering).map
            DeletedRange.opening ++
          (row?.toList.map Element.row ++
            ((rangesOf history partition.key).filter fun range => range.last = clustering).map
              DeletedRange.closing)

/-- A buffer is what the operations say: its cells, its partitions and their number. -/
structure Memtable.Recalls (memtable : Memtable) (history : List Operation) : Prop where
  cells : ∀ key clustering column,
    memtable.get? key clustering column = newest (cellsOf history key clustering) column
  untouched : ∀ key, memtable.partition? key = none ↔ ¬ IsTouched history key
  partitions : ∀ key partition, memtable.partition? key = some partition →
    partition.key = key ∧ partition.Recalls history
  listing : ∃ keys : List Key, keys.Pairwise (fun left right => compare left right = .lt) ∧
    (∀ key, key ∈ keys ↔ IsTouched history key) ∧
    memtable.toList.map some = keys.map memtable.partition? ∧ memtable.size = keys.length

/-- Cells of which each is the newest that was written for its column make a row that shows them. -/
theorem Cells.IsFiled.shows {cells : Cells} (filed : cells.IsFiled) (clustering : Clustering)
    {written : List Cell} (nonempty : written ≠ [])
    (held : ∀ column : String, cells[column]? = newest written column) :
    (Row.ofCells clustering .live cells.toList).Shows clustering written where
  nonempty := nonempty
  clustering := rfl
  deletion := rfl
  ordered := by
    rw [filed.cells_ofCells]
    exact filed.pairwise_toList
  cells cell := by
    rw [filed.cells_ofCells, mem_toList_iff]
    constructor
    · rintro ⟨column, found⟩
      rw [filed column cell found, ← held, found]
    · intro found
      exact ⟨cell.column, (held cell.column).trans found⟩

namespace Contents.Recalls

variable {contents : Contents} {history : List Operation} {key : Key}

/-- The cells are under their own columns, as every newest cell is one of its column. -/
theorem isFiled (recalls : contents.Recalls history key) : contents.IsFiled where
  static column cell held := by
    rw [recalls.staticCells] at held
    exact column_of_newest held
  rows clustering column cell held := by
    rw [recalls.cells] at held
    exact column_of_newest held

theorem showsRow (recalls : contents.Recalls history key) (clustering : Clustering) :
    ShowsRow (contents.row? clustering) clustering (cellsOf history key clustering) := by
  have rows := recalls.rows clustering
  rw [Std.TreeMap.mem_iff_isSome_getElem?] at rows
  rw [Contents.row?]
  cases held : contents.rows[clustering]? with
  | none =>
      rw [held] at rows
      show cellsOf history key clustering = []
      simpa using rows
  | some cells =>
      rw [held] at rows
      obtain rfl := getD_rows_of_getElem? held
      exact (recalls.isFiled.rows clustering).shows clustering (rows.1 rfl)
        (recalls.cells clustering)

theorem showsStaticRow (recalls : contents.Recalls history key) :
    ShowsRow (contents.partition key).staticRow [] (staticCellsOf history key) := by
  unfold partition
  by_cases empty : contents.staticCells.isEmpty
  · rw [if_pos empty]
    show staticCellsOf history key = []
    rw [List.eq_nil_iff_forall_not_mem]
    intro cell member
    apply newest_ne_none member
    rw [← recalls.staticCells, Std.TreeMap.getElem?_of_isEmpty empty]
  · rw [if_neg empty]
    apply recalls.isFiled.static.shows [] _ recalls.staticCells
    intro nothing
    obtain ⟨column, member⟩ := Std.TreeMap.isEmpty_eq_false_iff_exists_mem.1
      (Bool.eq_false_iff.2 empty)
    rw [Std.TreeMap.mem_iff_isSome_getElem?, recalls.staticCells, nothing] at member
    cases member

/-- The partition of contents that are what the history says is what it says too. -/
theorem partition (recalls : contents.Recalls history key) :
    (contents.partition key).Recalls history where
  deletion := by
    rw [← show (contents.partition key).key = key from rfl] at recalls
    exact congrArg (fun deletion => Option.getD deletion Deletion.live) recalls.deletion
  staticRow := recalls.showsStaticRow
  ascending := by
    apply (contents.pairwise_elements_partition key).imp
    exact Element.isLE_of_notAfter
  elements clustering := by
    refine ⟨contents.row? clustering, recalls.showsRow clustering, ?_⟩
    rw [← show contents.ranges = rangesOf history (contents.partition key).key from recalls.ranges]
    exact contents.filter_elements_partition clustering key

end Contents.Recalls

namespace Memtable

theorem get?_eq (memtable : Memtable) (key : Key) (clustering : Clustering) (column : String) :
    memtable.get? key clustering column =
      ((memtable.contents key).rows.getD clustering ∅)[column]? := by
  rw [get?, contents, Std.TreeMap.getD_eq_getD_getElem?, Std.TreeMap.getD_eq_getD_getElem?]
  cases memtable.partitions[key]? with
  | none => simp
  | some held =>
      show (held.rows[clustering]?.bind fun row => row[column]?) = _
      rw [Option.getD_some]
      cases held.rows[clustering]? with
      | none => simp
      | some row => rfl

theorem Holds.recalls {memtable : Memtable} {history : List Operation}
    (holds : memtable.Holds history) : memtable.Recalls history where
  cells key clustering column := by
    rw [get?_eq, (holds.contents key).cells]
  untouched key := by
    rw [partition?, Option.map_eq_none_iff, ← holds.keys, Std.TreeMap.mem_iff_isSome_getElem?,
      Bool.not_eq_true, Option.isSome_eq_false_iff, Option.isNone_iff_eq_none]
  partitions key partition found := by
    obtain ⟨contents, held, rfl⟩ := Option.map_eq_some_iff.1 found
    rw [← contents_of_partitions held]
    exact ⟨rfl, (holds.contents key).partition⟩
  listing := by
    refine ⟨memtable.toList.map Partition.key, memtable.pairwise_keys, ?_, ?_, ?_⟩
    · intro key
      rw [mem_keys_iff, holds.keys]
    · rw [List.map_map]
      apply List.map_congr_left
      intro partition member
      exact (partition?_eq_some_iff.2 ⟨member, rfl⟩).symm
    · rw [List.length_map, toList, List.length_map, Std.TreeMap.length_toList, size]

/-- After any operations the buffer is what those since the last clearing say. -/
theorem recalls_performAll (history : List Operation) :
    (empty.performAll history).Recalls (sinceClear history) :=
  (holds_performAll history).recalls

end Memtable

end SortedTable

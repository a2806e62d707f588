import Mathlib.Data.List.Basic
import Mathlib.Data.List.Induction
import SortedTable.Memtable

namespace SortedTable

section

variable {α : Type} (time : α → Int64)

/-- The first of the items that have the greatest time. -/
def firstLatest (items : List α) : Option α :=
  items.find? fun item => items.all fun other => time other ≤ time item

/-- The item that stays when an item meets the one before. -/
def later (old : Option α) (item : α) : α :=
  match old with
  | some old => if time item ≤ time old then old else item
  | none => item

/-- The item is later than those in front of it, and no item behind it is later. -/
def IsFirstLatest (items : List α) (item : α) : Prop :=
  ∃ front back, items = front ++ item :: back ∧
    (∀ other ∈ front, time other < time item) ∧ ∀ other ∈ back, time other ≤ time item

variable {time} {items : List α}

theorem IsFirstLatest.firstLatest_eq {item : α} (isFirst : IsFirstLatest time items item) :
    firstLatest time items = some item := by
  obtain ⟨front, back, rfl, before, behind⟩ := isFirst
  rw [firstLatest, List.find?_eq_some_iff_append]
  refine ⟨?_, front, back, rfl, ?_⟩
  · rw [List.all_eq_true]
    intro other member
    rw [decide_eq_true_eq]
    obtain member | rfl | member := by simpa using member
    · exact Int64.le_of_lt (before other member)
    · exact Int64.le_refl _
    · exact behind other member
  · intro other member
    rw [Bool.not_eq_true', List.all_eq_false]
    refine ⟨item, List.mem_append_right front List.mem_cons_self, ?_⟩
    rw [decide_eq_true_eq]
    exact Int64.not_le.2 (before other member)

theorem IsFirstLatest.concat {old : α} (isFirst : IsFirstLatest time items old) (item : α) :
    IsFirstLatest time (items ++ [item]) (later time (some old) item) := by
  obtain ⟨front, back, rfl, before, behind⟩ := isFirst
  rw [later]
  by_cases stays : time item ≤ time old
  · rw [if_pos stays]
    refine ⟨front, back ++ [item], by simp, before, ?_⟩
    intro other member
    obtain member | member := List.mem_append.1 member
    · exact behind other member
    · rw [List.mem_singleton.1 member]
      exact stays
  · rw [if_neg stays]
    refine ⟨front ++ old :: back, [], rfl, ?_, nofun⟩
    have newer := Int64.not_le.1 stays
    intro other member
    obtain member | rfl | member := by simpa using member
    · exact Int64.lt_trans (before other member) newer
    · exact newer
    · exact Int64.lt_of_le_of_lt (behind other member) newer

variable (time)

theorem isFirstLatest_singleton (item : α) : IsFirstLatest time [item] item :=
  ⟨[], [], rfl, nofun, nofun⟩

theorem exists_isFirstLatest (nonempty : items ≠ []) : ∃ item, IsFirstLatest time items item := by
  induction items using List.reverseRecOn with
  | nil => exact absurd rfl nonempty
  | append_singleton items last inductive_step =>
      by_cases first : items = []
      · subst first
        exact ⟨last, isFirstLatest_singleton time last⟩
      · obtain ⟨item, isFirst⟩ := inductive_step first
        exact ⟨_, isFirst.concat last⟩

/-- One more item replaces the item so far if it is later. -/
theorem firstLatest_concat (items : List α) (item : α) :
    firstLatest time (items ++ [item]) = some (later time (firstLatest time items) item) := by
  by_cases first : items = []
  · subst first
    exact (isFirstLatest_singleton time item).firstLatest_eq
  · obtain ⟨old, isFirst⟩ := exists_isFirstLatest time first
    rw [isFirst.firstLatest_eq, (isFirst.concat item).firstLatest_eq]

theorem firstLatest_ne_none (nonempty : items ≠ []) : firstLatest time items ≠ none := by
  obtain ⟨item, isFirst⟩ := exists_isFirstLatest time nonempty
  rw [isFirst.firstLatest_eq]
  exact nofun

end

/-- The newest of the cells of a column; of equally new ones it is the first. -/
def newest (cells : List Cell) (column : String) : Option Cell :=
  firstLatest Cell.timestamp (cells.filter fun cell => cell.column = column)

/-- The newest deletion; of equally new ones it is the first. -/
def newestDeletion (deletions : List Deletion) : Option Deletion :=
  firstLatest Deletion.markedAt deletions

theorem Cells.winner_eq_later (old : Option Cell) (cell : Cell) :
    Cells.winner old cell = later Cell.timestamp old cell := by
  cases old <;> rfl

theorem newest_concat (cells : List Cell) (cell : Cell) (column : String) :
    newest (cells ++ [cell]) column =
      if column = cell.column then some (Cells.winner (newest cells cell.column) cell)
      else newest cells column := by
  rw [newest, List.filter_append, List.filter_singleton]
  by_cases own : cell.column = column
  · subst own
    rw [decide_eq_true rfl, cond_true, firstLatest_concat, if_pos rfl, Cells.winner_eq_later, newest]
  · rw [decide_eq_false own, cond_false, List.append_nil, if_neg (Ne.symm own), newest]

/-- A tombstone wins or loses by its time, and of two equally new cells the first one stays. -/
example : newest [⟨"a", 1, none⟩, ⟨"a", 2, some [1]⟩, ⟨"b", 3, none⟩, ⟨"a", 2, some [2]⟩] "a" =
    some ⟨"a", 2, some [1]⟩ := by decide

theorem newest_ne_none {cells : List Cell} {cell : Cell} (member : cell ∈ cells) :
    newest cells cell.column ≠ none := by
  apply firstLatest_ne_none
  exact List.ne_nil_of_mem (List.mem_filter.2 ⟨member, decide_eq_true rfl⟩)

theorem column_of_newest {cells : List Cell} {column : String} {cell : Cell}
    (found : newest cells column = some cell) : cell.column = column :=
  of_decide_eq_true (List.mem_filter.1 (List.mem_of_find?_eq_some found)).2

end SortedTable

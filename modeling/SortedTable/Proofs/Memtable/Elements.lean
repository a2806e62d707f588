import Mathlib.Data.List.Nodup
import SortedTable.Proofs.Memtable
import SortedTable.Proofs.Sorting

namespace SortedTable

/-- A map has at most the one entry of a key. -/
theorem filter_key_toList {K V : Type} [Ord K] [Std.TransOrd K] [Std.LawfulEqOrd K] [DecidableEq K]
    (map : Std.TreeMap K V) (key : K) :
    map.toList.filter (fun entry => entry.1 = key) =
      (map[key]?.map fun value => (key, value)).toList := by
  have distinct : map.toList.Nodup := by
    apply (Std.TreeMap.ordered_keys_toList (t := map)).imp
    intro left right below same
    rw [same, Std.LawfulEqOrd.compare_eq_iff_eq.2 rfl] at below
    cases below
  have same : (map.toList.filter fun entry => entry.1 = key).Perm
      (map[key]?.map fun value => (key, value)).toList := by
    rw [List.perm_ext_iff_of_nodup (distinct.filter _) (by cases map[key]? <;> simp)]
    intro entry
    rw [List.mem_filter, Std.TreeMap.mem_toList_iff_getElem?_eq_some, decide_eq_true_eq,
      Option.mem_toList, Option.map_eq_some_iff]
    constructor
    · rintro ⟨held, rfl⟩
      exact ⟨entry.2, held, rfl⟩
    · rintro ⟨value, held, rfl⟩
      exact ⟨held, rfl⟩
  cases held : map[key]? with
  | none =>
      rw [held] at same
      exact same.eq_nil
  | some value =>
      rw [held] at same
      exact same.eq_singleton

namespace Cells

/-- The cells ascend strictly by column. -/
theorem IsFiled.pairwise_toList {cells : Cells} (filed : cells.IsFiled) :
    cells.toList.Pairwise fun left right => compare left.column right.column = .lt := by
  rw [toList, List.pairwise_map]
  apply (Std.TreeMap.ordered_keys_toList (t := cells)).imp_of_mem
  intro left right first second below
  rw [filed _ _ (Std.TreeMap.mem_toList_iff_getElem?_eq_some.1 first),
    filed _ _ (Std.TreeMap.mem_toList_iff_getElem?_eq_some.1 second)]
  exact below

/-- A row takes the cells over in their order. -/
theorem IsFiled.cells_ofCells {cells : Cells} (filed : cells.IsFiled) (clustering : Clustering)
    (deletion : Deletion) : (Row.ofCells clustering deletion cells.toList).cells = cells.toList := by
  apply List.mergeSort_of_pairwise
  apply filed.pairwise_toList.imp
  intro left right below
  rw [Cell.notAfter, below]
  rfl

end Cells

namespace DeletedRange

/-- The marker at the first clustering of a range. -/
def opening (range : DeletedRange) : Element := .marker ⟨.opening, range.first, range.deletion⟩

/-- The marker at the last clustering of a range. -/
def closing (range : DeletedRange) : Element := .marker ⟨.closing, range.last, range.deletion⟩

end DeletedRange

namespace Element

theorem notAfter_iff {left right : Element} :
    left.notAfter right ↔ compare left.clustering right.clustering = .lt ∨
      left.clustering = right.clustering ∧ left.rank ≤ right.rank := by
  rw [notAfter, Ordering.isLE_then_iff_or, Std.LawfulEqOrd.compare_eq_iff_eq, Nat.isLE_compare]

theorem isLE_of_notAfter {left right : Element} (order : left.notAfter right) :
    (compare left.clustering right.clustering).isLE := by
  obtain below | ⟨same, -⟩ := notAfter_iff.1 order
  · rw [below]
    rfl
  · rw [same, Std.LawfulEqOrd.compare_eq_iff_eq.2 rfl]
    rfl

theorem notAfter_trans (first second third : Element) (left : first.notAfter second)
    (right : second.notAfter third) : first.notAfter third := by
  rw [notAfter_iff] at left right ⊢
  obtain below | ⟨same, order⟩ := left
  · obtain below' | ⟨same', -⟩ := right
    · exact .inl (Std.TransCmp.lt_trans below below')
    · exact .inl (same' ▸ below)
  · rw [same]
    exact right.imp_right fun ⟨same', order'⟩ => ⟨same', Nat.le_trans order order'⟩

theorem notAfter_total (left right : Element) :
    (left.notAfter right || right.notAfter left) = true := by
  rw [Bool.or_eq_true, notAfter_iff, notAfter_iff,
    @Std.OrientedCmp.eq_swap _ compare _ right.clustering]
  cases order : compare left.clustering right.clustering with
  | lt => exact .inl (.inl rfl)
  | eq =>
      have same := Std.LawfulEqOrd.eq_of_compare order
      exact (Nat.le_total left.rank right.rank).imp (fun low => .inr ⟨same, low⟩)
        fun low => .inr ⟨same.symm, low⟩
  | gt => exact .inr (.inl rfl)

theorem rank_le (element : Element) : element.rank ≤ 2 := by
  obtain content | ⟨bound, clustering, deletion⟩ := element
  · exact Nat.le_succ 1
  · cases bound
    · exact Nat.zero_le 2
    · exact Nat.le_refl 2

/-- A list that ascends by rank is made of the ranks in turn. -/
theorem eq_append_of_ascends {elements : List Element}
    (ascends : elements.Pairwise fun left right => left.rank ≤ right.rank) :
    elements = elements.filter (fun element => element.rank = 0) ++
      (elements.filter (fun element => element.rank = 1) ++
        elements.filter (fun element => element.rank = 2)) := by
  induction elements with
  | nil => rfl
  | cons element rest inductive_step =>
      obtain ⟨least, ascends⟩ := List.pairwise_cons.1 ascends
      have below (rank : Nat) (low : rank < element.rank) :
          rest.filter (fun element => element.rank = rank) = [] := by
        rw [List.filter_eq_nil_iff]
        intro other member
        have := least other member
        rw [decide_eq_true_eq]
        omega
      have split := inductive_step ascends
      have bound := element.rank_le
      by_cases opens : element.rank = 0
      · rw [List.filter_cons_of_pos (by simpa), List.filter_cons_of_neg (by simp [opens]),
          List.filter_cons_of_neg (by simp [opens]), List.cons_append, ← split]
      · rw [below 0 (by omega), List.nil_append] at split
        rw [List.filter_cons_of_neg (by simpa), below 0 (by omega), List.nil_append]
        by_cases middle : element.rank = 1
        · rw [List.filter_cons_of_pos (by simpa), List.filter_cons_of_neg (by simp [middle]),
            List.cons_append, ← split]
        · rw [below 1 (by omega), List.nil_append] at split
          rw [List.filter_cons_of_neg (by simpa), below 1 (by omega), List.nil_append,
            List.filter_cons_of_pos (by rw [decide_eq_true_eq]; omega), ← split]

/-- The element is one of a clustering, and of a rank. -/
def isAt (clustering : Clustering) (rank : Nat) (element : Element) : Bool :=
  element.rank = rank ∧ element.clustering = clustering

/-- Among sorted elements those of one clustering are the ones of each rank in turn. -/
theorem filter_clustering_mergeSort (elements : List Element) (clustering : Clustering) :
    (elements.mergeSort notAfter).filter (fun element => element.clustering = clustering) =
      elements.filter (isAt clustering 0) ++
        (elements.filter (isAt clustering 1) ++ elements.filter (isAt clustering 2)) := by
  have tied (rank : Nat) : ((elements.mergeSort notAfter).filter
      fun element => element.clustering = clustering).filter (fun element => element.rank = rank) =
      elements.filter (isAt clustering rank) := by
    rw [List.filter_filter,
      ← filter_mergeSort_of_tied notAfter_trans notAfter_total elements (isAt clustering rank)]
    · apply List.filter_congr
      intro element _
      exact (Bool.decide_and _ _).symm
    · intro left right first second
      obtain ⟨rank₁, same₁⟩ := of_decide_eq_true first
      obtain ⟨rank₂, same₂⟩ := of_decide_eq_true second
      exact notAfter_iff.2 (.inr ⟨same₁.trans same₂.symm, Nat.le_of_eq (rank₁.trans rank₂.symm)⟩)
  have ascends : ((elements.mergeSort notAfter).filter
      fun element => element.clustering = clustering).Pairwise
        fun left right => left.rank ≤ right.rank := by
    apply ((List.pairwise_mergeSort notAfter_trans notAfter_total elements).filter _).imp_of_mem
    intro left right first second order
    have same := of_decide_eq_true (List.mem_filter.1 first).2
    have same' := of_decide_eq_true (List.mem_filter.1 second).2
    obtain below | ⟨-, order⟩ := notAfter_iff.1 order
    · rw [same, same', Std.LawfulEqOrd.compare_eq_iff_eq.2 rfl] at below
      cases below
    · exact order
  rw [eq_append_of_ascends ascends, tied, tied, tied]

end Element

namespace Contents

variable (contents : Contents) (clustering : Clustering)

theorem filter_markers_opening (ranges : List DeletedRange) :
    (ranges.flatMap DeletedRange.markers).filter (Element.isAt clustering 0) =
      (ranges.filter fun range => range.first = clustering).map DeletedRange.opening := by
  induction ranges with
  | nil => rfl
  | cons range rest inductive_step =>
      rw [List.flatMap_cons, List.filter_append, inductive_step]
      by_cases here : range.first = clustering <;>
        simp [DeletedRange.markers, Element.isAt, Element.rank, Element.clustering,
          DeletedRange.opening, here]

theorem filter_markers_closing (ranges : List DeletedRange) :
    (ranges.flatMap DeletedRange.markers).filter (Element.isAt clustering 2) =
      (ranges.filter fun range => range.last = clustering).map DeletedRange.closing := by
  induction ranges with
  | nil => rfl
  | cons range rest inductive_step =>
      rw [List.flatMap_cons, List.filter_append, inductive_step]
      by_cases here : range.last = clustering <;>
        simp [DeletedRange.markers, Element.isAt, Element.rank, Element.clustering,
          DeletedRange.closing, here]

theorem filter_markers_row (ranges : List DeletedRange) :
    (ranges.flatMap DeletedRange.markers).filter (Element.isAt clustering 1) = [] := by
  rw [List.filter_eq_nil_iff]
  intro element member
  obtain ⟨range, -, shown⟩ := List.mem_flatMap.1 member
  simp only [DeletedRange.markers, List.mem_cons, List.not_mem_nil, or_false] at shown
  obtain rfl | rfl := shown <;> simp [Element.isAt, Element.rank]

/-- The row that the buffer shows for a clustering. -/
def row? : Option Row :=
  contents.rows[clustering]?.map fun cells => .ofCells clustering .live cells.toList

theorem filter_elements_marker {rank : Nat} (marks : rank ≠ 1) :
    contents.elements.filter (Element.isAt clustering rank) =
      (contents.ranges.flatMap DeletedRange.markers).filter (Element.isAt clustering rank) := by
  rw [elements, List.filter_append, List.append_right_eq_self, List.filter_eq_nil_iff]
  intro element member
  obtain ⟨row, -, rfl⟩ := List.mem_map.1 member
  simp [Element.isAt, Element.rank, Ne.symm marks]

theorem filter_elements_row :
    contents.elements.filter (Element.isAt clustering 1) =
      (contents.row? clustering).toList.map Element.row := by
  rw [elements, List.filter_append, filter_markers_row, List.nil_append, List.filter_map]
  have chosen : (Element.isAt clustering 1 ∘ fun row : Clustering × Cells =>
      Element.row (.ofCells row.1 .live row.2.toList)) = fun row => decide (row.1 = clustering) := by
    funext row
    simp [Element.isAt, Element.rank, Element.clustering, Row.ofCells]
  show List.map _ (contents.rows.toList.filter _) = _
  rw [chosen, filter_key_toList, row?]
  cases contents.rows[clustering]? <;> rfl

/-- At each clustering a partition has the opening markers, then the row, then the closing ones. -/
theorem filter_elements_partition (key : Key) :
    (contents.partition key).elements.filter (fun element => element.clustering = clustering) =
      (contents.ranges.filter fun range => range.first = clustering).map DeletedRange.opening ++
        ((contents.row? clustering).toList.map Element.row ++
          (contents.ranges.filter fun range => range.last = clustering).map
            DeletedRange.closing) := by
  rw [partition, Element.filter_clustering_mergeSort, filter_elements_row,
    filter_elements_marker contents clustering (by decide),
    filter_elements_marker contents clustering (by decide), filter_markers_opening,
    filter_markers_closing]

/-- The elements of a partition ascend. -/
theorem pairwise_elements_partition (key : Key) :
    (contents.partition key).elements.Pairwise fun left right => left.notAfter right :=
  List.pairwise_mergeSort Element.notAfter_trans Element.notAfter_total contents.elements

end Contents

end SortedTable

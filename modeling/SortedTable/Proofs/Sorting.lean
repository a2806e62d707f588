import Mathlib.Data.List.Pairwise

namespace SortedTable

section

variable {α : Type*} {notAfter : α → α → Bool}

/-- Elements that are all equal in an order keep their own order when they are sorted. -/
theorem filter_mergeSort_of_tied
    (trans : ∀ first second third, notAfter first second → notAfter second third →
      notAfter first third)
    (total : ∀ left right, notAfter left right || notAfter right left)
    (list : List α) (chosen : α → Bool)
    (tied : ∀ left right, chosen left → chosen right → notAfter left right) :
    (list.mergeSort notAfter).filter chosen = list.filter chosen := by
  have ordered : (list.filter chosen).Pairwise fun left right => notAfter left right :=
    List.pairwise_of_forall_mem_list fun left first right second =>
      tied left right (List.mem_filter.1 first).2 (List.mem_filter.1 second).2
  have kept := (List.sublist_mergeSort trans total ordered List.filter_sublist).filter chosen
  rw [List.filter_filter] at kept
  simp only [Bool.and_self] at kept
  symm
  apply kept.eq_of_length
  exact ((List.mergeSort_perm list notAfter).filter chosen).length_eq.symm

end

section

variable {α β : Type*} {rank : α → β} {first element : α} {rest left right : List α}

theorem mem_iff_of_filter_rank [DecidableEq β]
    (same : ∀ height, left.filter (rank · = height) = right.filter (rank · = height)) :
    element ∈ left ↔ element ∈ right := by
  have groups := congrArg (element ∈ ·) (same (rank element))
  simpa only [List.mem_filter, decide_true, and_true, eq_iff_iff] using groups

variable [LE β] [Std.IsPartialOrder β]

/-- The first element of a list in ascending order has the lowest rank. -/
theorem rank_le_of_mem (ordered : (first :: rest).Pairwise fun left right => rank left ≤ rank right)
    (member : element ∈ first :: rest) : rank first ≤ rank element := by
  rcases List.mem_cons.1 member with rfl | member
  · exact Std.le_refl _
  · exact (List.pairwise_cons.1 ordered).1 element member

/-- Lists in ascending order are the same if they have the same elements of every rank. -/
theorem eq_of_filter_rank [DecidableEq β]
    (ordered : left.Pairwise fun first second => rank first ≤ rank second)
    (ordered' : right.Pairwise fun first second => rank first ≤ rank second)
    (same : ∀ height, left.filter (rank · = height) = right.filter (rank · = height)) :
    left = right := by
  induction left generalizing right with
  | nil =>
      refine (List.eq_nil_iff_forall_not_mem.2 fun element member => ?_).symm
      exact absurd ((mem_iff_of_filter_rank same).2 member) List.not_mem_nil
  | cons first rest ih =>
      cases right with
      | nil => exact absurd ((mem_iff_of_filter_rank same).1 List.mem_cons_self) List.not_mem_nil
      | cons first' rest' =>
          -- each head is in the other list, so both have the lowest rank, and of this rank they are the first
          have tied : rank first' = rank first :=
            Std.le_antisymm
              (rank_le_of_mem ordered' ((mem_iff_of_filter_rank same).1 List.mem_cons_self))
              (rank_le_of_mem ordered ((mem_iff_of_filter_rank same).2 List.mem_cons_self))
          have heads := same (rank first)
          rw [List.filter_cons_of_pos (by simp), List.filter_cons_of_pos (by simp [tied])] at heads
          obtain ⟨rfl, -⟩ := List.cons.inj heads
          have behind (height : β) :
              rest.filter (rank · = height) = rest'.filter (rank · = height) := by
            have groups := same height
            by_cases own : rank first = height
            · rw [List.filter_cons_of_pos (by simpa using own),
                List.filter_cons_of_pos (by simpa using own)] at groups
              exact (List.cons.inj groups).2
            · rwa [List.filter_cons_of_neg (by simpa using own),
                List.filter_cons_of_neg (by simpa using own)] at groups
          rw [ih (List.pairwise_cons.1 ordered).2 (List.pairwise_cons.1 ordered').2 behind]

end

end SortedTable

import SortedTable.Sink

namespace SortedTable.SinkPlan

theorem taken_writeAll (plan : SinkPlan) (tracker : Tracker) (bytes : Bytes) :
    (plan.writeAll tracker bytes).tracker.taken =
      tracker.taken + (plan.writeAll tracker bytes).parts.flatten.length := by
  induction tracker, bytes using writeAll.induct plan with
  | case1 tracker => simp [writeAll]
  | case2 tracker first rest interrupted ih =>
      rw [writeAll, if_pos interrupted]
      exact ih
  | case3 tracker first rest lasting cause answer
  | case4 tracker first rest lasting answer
  | case5 tracker first rest lasting answer =>
      rw [writeAll, if_neg lasting, answer]
      simp [Tracker.advance]
  | case6 tracker first rest lasting count answer part ih =>
      rw [writeAll, if_neg lasting, answer]
      dsimp only
      rw [ih, List.flatten_cons, List.length_append, ← Nat.add_assoc]
      rfl

/-- A request that was written whole counts as all of its bytes. -/
theorem taken_of_writeAll {plan : SinkPlan} {tracker : Tracker} {bytes : Bytes}
    (whole : (plan.writeAll tracker bytes).fault = none) :
    (plan.writeAll tracker bytes).tracker.taken = tracker.taken + bytes.length := by
  rw [taken_writeAll, flatten_parts_writeAll plan tracker bytes whole]

end SortedTable.SinkPlan

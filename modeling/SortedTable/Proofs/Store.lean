import SortedTable.Store

namespace SortedTable

/-- What is delivered when all observers are told these notices one after the other. -/
def deliveriesTo (observers : Nat) (notices : List Notice) : List (Nat × Notice) :=
  notices.flatMap fun notice => (List.range observers).map fun observer => (observer, notice)

@[simp] theorem deliveriesTo_nil (observers : Nat) : deliveriesTo observers [] = [] := rfl

@[simp] theorem deliveriesTo_append (observers : Nat) (first second : List Notice) :
    deliveriesTo observers (first ++ second) =
      deliveriesTo observers first ++ deliveriesTo observers second :=
  List.flatMap_append

namespace Store

@[simp] theorem disk_change (store : Store) (step : Change) :
    (store.change step).disk = store.disk.apply step := rfl

@[simp] theorem deliveries_change (store : Store) (step : Change) :
    (store.change step).deliveries = store.deliveries := by
  simp [deliveries, trace, change, Event.delivery?]

@[simp] theorem deliveries_changeAll (store : Store) (steps : List Change) :
    (store.changeAll steps).deliveries = store.deliveries := by
  induction steps generalizing store with
  | nil => rfl
  | cons step rest ih => exact (ih (store.change step)).trans (store.deliveries_change step)

@[simp] theorem disk_deliver (store : Store) (observers : Nat) (notice : Notice) :
    (store.deliver observers notice).disk = store.disk := rfl

/-- Telling the observers puts one delivery for each of them behind the record. -/
theorem trace_deliver (store : Store) (observers : Nat) (notice : Notice) :
    (store.deliver observers notice).trace =
      store.trace ++ (List.range observers).map fun observer => .delivery observer notice := by
  have folded (numbers : List Nat) (events : List Event) :
      (numbers.foldl (fun events observer => .delivery observer notice :: events) events).reverse =
        events.reverse ++ numbers.map fun observer => .delivery observer notice := by
    induction numbers generalizing events with
    | nil => exact (List.append_nil _).symm
    | cons number rest ih =>
        rw [List.foldl_cons, ih, List.reverse_cons, List.append_assoc]
        rfl
  exact folded (List.range observers) store.reversed

@[simp] theorem deliveries_deliver (store : Store) (observers : Nat) (notice : Notice) :
    (store.deliver observers notice).deliveries =
      store.deliveries ++ deliveriesTo observers [notice] := by
  have each : (Event.delivery? ∘ fun observer => Event.delivery observer notice) =
      some ∘ fun observer => (observer, notice) := by
    funext observer
    rfl
  rw [deliveries, trace_deliver, List.filterMap_append, List.filterMap_map, each,
    List.filterMap_eq_map, deliveriesTo, List.flatMap_singleton]
  rfl

end Store

end SortedTable

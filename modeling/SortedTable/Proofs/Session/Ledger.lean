import Mathlib.Data.List.Induction
import Mathlib.Logic.Function.Basic
import SortedTable.Proofs.Session.Merge
import SortedTable.Session.Action

namespace SortedTable

namespace Session

namespace Action

/-- The key, the slot and the value of a write. -/
def write? : Action → Option (Key × Slot × Bytes)
  | .put _ key column value => some (key, ⟨false, [], column⟩, value)
  | .putStatic _ key column value => some (key, ⟨true, [], column⟩, value)
  | .delete _ _ | .flush _ => none

/-- The key that is deleted. -/
def deleted? : Action → Option Key
  | .delete _ key => some key
  | .put _ _ _ _ | .putStatic _ _ _ _ | .flush _ => none

/-- The key that is written or deleted. -/
def key? : Action → Option Key
  | .put _ key _ _ | .putStatic _ key _ _ | .delete _ key => some key
  | .flush _ => none

/-- The greatest time given out so far, after an action. -/
def timeAfter (last : Int64) (action : Action) : Int64 :=
  action.reading?.elim last fun now => max now (last + 1)

/-- An action that leaves a slot of a key alone. -/
def Spares (key : Key) (slot : Slot) (action : Action) : Prop :=
  (∀ value, action.write? ≠ some (key, slot, value)) ∧ action.deleted? ≠ some key

end Action

/-- One of the actions writes this value at this time, and all behind it leave the slot alone. -/
def IsLastWrite (actions : List Action) (key : Key) (slot : Slot) (value : Bytes) (time : Int64) :
    Prop :=
  ∃ front action back, actions = front ++ action :: back ∧
    action.write? = some (key, slot, value) ∧ (front ++ [action]).foldl Action.timeAfter 0 = time ∧
    ∀ later ∈ back, later.Spares key slot

/-- The last of the actions writes the slot or leaves it alone. -/
theorem isLastWrite_concat_iff {actions : List Action} {action : Action} {key : Key} {slot : Slot}
    {value : Bytes} {time : Int64} :
    IsLastWrite (actions ++ [action]) key slot value time ↔
      action.write? = some (key, slot, value) ∧
          (actions ++ [action]).foldl Action.timeAfter 0 = time ∨
        action.Spares key slot ∧ IsLastWrite actions key slot value time := by
  constructor
  · rintro ⟨front, written, back, split, wrote, timed, spared⟩
    rcases List.eq_nil_or_concat back with rfl | ⟨before, last, rfl⟩
    · obtain ⟨rfl, same⟩ := List.append_inj' split rfl
      cases same
      exact .inl ⟨wrote, timed⟩
    · rw [List.concat_eq_append] at split spared
      rw [← List.cons_append, ← List.append_assoc] at split
      obtain ⟨rfl, same⟩ := List.append_inj' split rfl
      cases same
      refine .inr ⟨spared action (by simp), front, written, before, rfl, wrote, timed, ?_⟩
      exact fun later member => spared later (List.mem_append_left _ member)
  · rintro (⟨wrote, timed⟩ | ⟨spares, front, written, back, rfl, wrote, timed, spared⟩)
    · exact ⟨actions, action, [], rfl, wrote, timed, nofun⟩
    · refine ⟨front, written, back ++ [action], by simp, wrote, timed, fun later member => ?_⟩
      rcases List.mem_append.1 member with member | member
      · exact spared later member
      · rw [List.mem_singleton.1 member]
        exact spares

end Session

/-- What was written under each key since its last deletion, the keys, and the greatest time given
out. -/
structure Ledger where
  written : Key → Written := fun _ _ => none
  touched : List Key := []
  last : Int64 := 0

namespace Ledger

/-- Replaces what was written under a key. -/
def set (ledger : Ledger) (key : Key) (written : Written) (time : Int64) : Ledger where
  written := Function.update ledger.written key written
  touched := key :: ledger.touched
  last := time

/-- The ledger after a write. -/
def write (ledger : Ledger) (now : Int64) (key : Key) (slot : Slot) (value : Bytes) : Ledger :=
  let time := max now (ledger.last + 1)
  ledger.set key (Function.update (ledger.written key) slot (some (value, time))) time

/-- The ledger after an action. -/
def note (ledger : Ledger) : Session.Action → Ledger
  | .put now key column value => ledger.write now key ⟨false, [], column⟩ value
  | .putStatic now key column value => ledger.write now key ⟨true, [], column⟩ value
  | .delete now key => ledger.set key (fun _ => none) (max now (ledger.last + 1))
  | .flush _ => ledger

/-- The ledger after actions in order. -/
def noteAll (ledger : Ledger) (actions : List Session.Action) : Ledger := actions.foldl note ledger

theorem last_note (ledger : Ledger) (action : Session.Action) :
    (ledger.note action).last = action.timeAfter ledger.last := by
  cases action <;> rfl

theorem last_noteAll (ledger : Ledger) (actions : List Session.Action) :
    (ledger.noteAll actions).last = actions.foldl Session.Action.timeAfter ledger.last := by
  induction actions generalizing ledger with
  | nil => rfl
  | cons action rest ih => exact (ih (ledger.note action)).trans (by rw [last_note]; rfl)

theorem mem_touched_note {ledger : Ledger} {action : Session.Action} {key : Key} :
    key ∈ (ledger.note action).touched ↔ action.key? = some key ∨ key ∈ ledger.touched := by
  cases action <;> simp [note, write, set, Session.Action.key?, eq_comm]

/-- The keys in the ledger are those that were written or deleted. -/
theorem mem_touched_noteAll {ledger : Ledger} {actions : List Session.Action} {key : Key} :
    key ∈ (ledger.noteAll actions).touched ↔
      (∃ action ∈ actions, action.key? = some key) ∨ key ∈ ledger.touched := by
  induction actions generalizing ledger with
  | nil => simp [noteAll]
  | cons action rest ih =>
      change key ∈ ((ledger.note action).noteAll rest).touched ↔ _
      rw [ih, mem_touched_note, ← or_assoc]
      simp only [List.mem_cons, exists_eq_or_imp, or_comm]

theorem written_write {ledger : Ledger} {now : Int64} {key other : Key} {slot slot' : Slot}
    {value value' : Bytes} {time : Int64} :
    (ledger.write now other slot' value').written key slot = some (value, time) ↔
      (other, slot', value') = (key, slot, value) ∧ max now (ledger.last + 1) = time ∨
        ¬(other = key ∧ slot' = slot) ∧ ledger.written key slot = some (value, time) := by
  unfold write set
  dsimp only
  by_cases same : key = other
  · subst same
    rw [Function.update_self]
    by_cases equal : slot = slot'
    · subst equal
      rw [Function.update_self]
      simp
    · rw [Function.update_of_ne equal]
      simp [Ne.symm equal]
  · rw [Function.update_of_ne same]
    simp [Ne.symm same]

/-- After an action a slot has what it wrote there, or what was there before if it was left alone. -/
theorem written_note {ledger : Ledger} {action : Session.Action} {key : Key} {slot : Slot}
    {value : Bytes} {time : Int64} :
    (ledger.note action).written key slot = some (value, time) ↔
      action.write? = some (key, slot, value) ∧ action.timeAfter ledger.last = time ∨
        action.Spares key slot ∧ ledger.written key slot = some (value, time) := by
  unfold Session.Action.Spares
  cases action with
  | put now other column value' =>
      refine written_write.trans ?_
      simp [Session.Action.write?, Session.Action.deleted?, Session.Action.timeAfter,
        Session.Action.reading?]
  | putStatic now other column value' =>
      refine written_write.trans ?_
      simp [Session.Action.write?, Session.Action.deleted?, Session.Action.timeAfter,
        Session.Action.reading?]
  | delete now other =>
      unfold note set
      dsimp only
      by_cases same : key = other
      · subst same
        rw [Function.update_self]
        simp [Session.Action.write?, Session.Action.deleted?]
      · rw [Function.update_of_ne same]
        simp [Session.Action.write?, Session.Action.deleted?, Ne.symm same]
  | flush medium => simp [note, Session.Action.write?, Session.Action.deleted?]

/-- In the ledger stand exactly the last writes. -/
theorem written_noteAll {actions : List Session.Action} {key : Key} {slot : Slot} {value : Bytes}
    {time : Int64} :
    (noteAll {} actions).written key slot = some (value, time) ↔
      Session.IsLastWrite actions key slot value time := by
  induction actions using List.reverseRecOn with
  | nil => simp [noteAll, Session.IsLastWrite]
  | append_singleton actions action ih =>
      rw [noteAll, List.foldl_append]
      change ((noteAll {} actions).note action).written key slot = some (value, time) ↔ _
      rw [written_note, Session.isLastWrite_concat_iff, ih, last_noteAll, List.foldl_append]
      rfl

end Ledger

end SortedTable

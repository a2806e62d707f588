import SortedTable.Disk.Edit
import SortedTable.Observer

namespace SortedTable

/-- One thing that happened. -/
inductive Event where
  | change (step : Change)
  /-- An observer, by its number, was told something. -/
  | delivery (observer : Nat) (notice : Notice)
  deriving DecidableEq

def Event.change? : Event → Option Change
  | .change step => some step
  | .delivery _ _ => none

def Event.delivery? : Event → Option (Nat × Notice)
  | .change _ => none
  | .delivery observer notice => some (observer, notice)

/-- A disk and, in reverse, what happened. -/
structure Store where
  disk : Disk
  reversed : List Event := []
  deriving Inhabited

namespace Store

/-- What happened, in order. -/
def trace (store : Store) : List Event := store.reversed.reverse

/-- The changes of the disk, in order. -/
def changes (store : Store) : List Change := store.trace.filterMap Event.change?

/-- The deliveries, in order. -/
def deliveries (store : Store) : List (Nat × Notice) := store.trace.filterMap Event.delivery?

/-- The same disk with an empty record. -/
def settled (store : Store) : Store := ⟨store.disk, []⟩

def change (store : Store) (step : Change) : Store :=
  ⟨store.disk.apply step, .change step :: store.reversed⟩

def changeAll (store : Store) (steps : List Change) : Store := steps.foldl change store

/-- Tells every observer, in the order of their numbers. -/
def deliver (store : Store) (observers : Nat) (notice : Notice) : Store :=
  { store with
    reversed :=
      (List.range observers).foldl (fun events observer => .delivery observer notice :: events)
        store.reversed }

/-- Makes the changes of a disk operation, if it succeeds. -/
def perform (store : Store) (operation : Disk → Except IoError (List Change)) :
    Except IoError Store :=
  (operation store.disk).map store.changeAll

/-- Creates a folder with the folders above it, as far as possible. -/
def createFolders (store : Store) (text : String) : Option IoError × Store :=
  let (changes, fault) := store.disk.createFolders text
  (fault, store.changeAll changes)

/-- The disk is the one that the record began with after all changes. -/
theorem disk_changeAll (store : Store) (steps : List Change) :
    (store.changeAll steps).disk = store.disk.applyAll steps := by
  induction steps generalizing store with
  | nil => rfl
  | cons step rest ih => exact ih (store.change step)

end Store

end SortedTable

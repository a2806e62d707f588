import SortedTable.Proofs.Disk.Folders
import SortedTable.Proofs.Store

namespace SortedTable

namespace Disk

/-- At every instant, before the first change and after each of them. -/
def Always (holds : Disk → Prop) (disk : Disk) (changes : List Change) : Prop :=
  ∀ front, front <+: changes → holds (disk.applyAll front)

namespace Always

variable {holds : Disk → Prop} {disk : Disk} {changes : List Change}

theorem nil (here : holds disk) : disk.Always holds [] := by
  intro front below
  rw [List.prefix_nil.1 below]
  exact here

theorem first (always : disk.Always holds changes) : holds disk := always [] List.nil_prefix

theorem last (always : disk.Always holds changes) : holds (disk.applyAll changes) :=
  always changes List.prefix_rfl

theorem mono {weaker : Disk → Prop} (always : disk.Always holds changes)
    (weakened : ∀ disk, holds disk → weaker disk) : disk.Always weaker changes :=
  fun front below => weakened _ (always front below)

theorem cons {change : Change} (here : holds disk)
    (always : (disk.apply change).Always holds changes) : disk.Always holds (change :: changes) := by
  intro front below
  cases front with
  | nil => exact here
  | cons head rest =>
      obtain ⟨rfl, inner⟩ := List.cons_prefix_cons.1 below
      exact always rest inner

theorem append {further : List Change} (always : disk.Always holds changes)
    (later : (disk.applyAll changes).Always holds further) :
    disk.Always holds (changes ++ further) := by
  induction changes generalizing disk with
  | nil => exact later
  | cons change rest ih =>
      refine .cons always.first (ih (fun front below => ?_) later)
      exact always (change :: front) (List.cons_prefix_cons.2 ⟨rfl, below⟩)

/-- At the instants of a single change, or of none, a disk is as before or as afterwards. -/
theorem of_length_le_one (short : changes.length ≤ 1) (here : holds disk)
    (there : holds (disk.applyAll changes)) : disk.Always holds changes := by
  match changes with
  | [] => exact .nil here
  | [change] => exact .cons here (.nil there)

end Always

section Counts

variable {disk : Disk} {changes : List Change}

theorem length_create_le {text : String} {id : Nat} (created : disk.create text = .ok (id, changes)) :
    changes.length ≤ 1 := by
  obtain ⟨spot, -, created⟩ := Except.bind_eq_ok_iff.1 created
  rcases spot with path | ⟨folder, name, - | -⟩
  · cases created
  · obtain ⟨found, -, created⟩ := Except.bind_eq_ok_iff.1 created
    rcases found with - | - | file <;> cases created <;> exact Nat.le_refl 1
  · cases created

theorem eq_of_replacing {source target : Path} {node : Node} {found : Option Node}
    (replaced : disk.replacing source target node found = .ok changes) :
    changes = [.rename source target] := by
  unfold replacing at replaced
  split at replaced
  · cases replaced
  · cases replaced
  · split at replaced <;> cases replaced
    rfl
  · cases replaced
    rfl

theorem length_rename_le {source target : String} (renamed : disk.rename source target = .ok changes) :
    changes.length ≤ 1 := by
  obtain ⟨spot, -, renamed⟩ := Except.bind_eq_ok_iff.1 renamed
  obtain ⟨spot', -, renamed⟩ := Except.bind_eq_ok_iff.1 renamed
  dsimp only at renamed
  split at renamed
  · obtain ⟨node, -, renamed⟩ := Except.bind_eq_ok_iff.1 renamed
    split at renamed
    · obtain ⟨found, -, renamed⟩ := Except.bind_eq_ok_iff.1 renamed
      split at renamed
      · cases renamed
      split at renamed
      · cases renamed
        exact Nat.zero_le 1
      split at renamed
      · cases renamed
      split at renamed
      · cases renamed
      rw [eq_of_replacing renamed]
      exact Nat.le_refl 1
    · cases renamed
  · cases renamed

theorem exists_of_remove {text : String} (removed : disk.remove text = .ok changes) :
    ∃ path, changes = [.remove path] := by
  obtain ⟨spot, -, removed⟩ := Except.bind_eq_ok_iff.1 removed
  rcases spot with path | ⟨folder, name, closed⟩
  · cases removed
  · obtain ⟨found, -, removed⟩ := Except.bind_eq_ok_iff.1 removed
    rcases found with - | - | file
    · cases removed
    · cases removed
    · dsimp only at removed
      split at removed <;> cases removed
      exact ⟨_, rfl⟩

theorem length_ensureFolder_le {text : String} (ensured : disk.ensureFolder text = .ok changes) :
    changes.length ≤ 1 := by
  unfold ensureFolder at ensured
  split at ensured
  · split at ensured <;> cases ensured
    exact Nat.zero_le 1
  · obtain ⟨spot, -, ensured⟩ := Except.bind_eq_ok_iff.1 ensured
    rcases spot with path | ⟨folder, name, closed⟩
    · cases ensured
    · obtain ⟨found, -, ensured⟩ := Except.bind_eq_ok_iff.1 ensured
      rcases found with - | there <;> cases ensured
      exact Nat.le_refl 1

end Counts

theorem always_ensureFirst (disk : Disk) (texts : List String) :
    disk.Always (·.AddsFolders (disk.applyAll (disk.ensureFirst texts).1))
      (disk.ensureFirst texts).1 := by
  induction texts with
  | nil => exact .nil (.refl disk)
  | cons text above ih =>
      unfold ensureFirst
      split
      · rename_i ensured
        exact .of_length_le_one (length_ensureFolder_le ensured) (addsFolders_of_ensureFolder ensured)
          (.refl _)
      · split
        · rename_i changes _ outer
          rwa [outer] at ih
        · rename_i changes outer
          rw [outer] at ih
          split
          · rename_i further ensured
            have adds := addsFolders_of_ensureFolder ensured
            have joined : disk.applyAll (changes ++ further) =
                (disk.applyAll changes).applyAll further := List.foldl_append
            rw [joined]
            exact (ih.mono fun _ front => front.trans adds).append
              (.of_length_le_one (length_ensureFolder_le ensured) adds (.refl _))
          · exact ih
      · exact .nil (.refl disk)

/-- While a folder is made with those above it, folders are added one after the other. -/
theorem always_createFolders (disk : Disk) (text : String) :
    disk.Always (·.AddsFolders (disk.applyAll (disk.createFolders text).1))
      (disk.createFolders text).1 :=
  always_ensureFirst disk (Path.folders text)

end Disk

namespace Store

/-- The changes that were made from a store to a later one. -/
structure Gains (store later : Store) (changes : List Change) : Prop where
  recorded : later.changes = store.changes ++ changes
  disk : later.disk = store.disk.applyAll changes

/-- From a store to a later one, `holds` was true at every instant. -/
def Passes (holds : Disk → Prop) (store later : Store) : Prop :=
  ∃ changes, store.Gains later changes ∧ store.disk.Always holds changes

theorem changes_changeAll (store : Store) (changes : List Change) :
    (store.changeAll changes).changes = store.changes ++ changes := by
  induction changes generalizing store with
  | nil => exact (List.append_nil _).symm
  | cons change rest ih =>
      have one : (store.change change).changes = store.changes ++ [change] := by
        simp [Store.changes, trace, Store.change, Event.change?]
      rw [changeAll, List.foldl_cons, ← changeAll, ih, one, List.append_assoc]
      rfl

theorem changes_deliver (store : Store) (observers : Nat) (notice : Notice) :
    (store.deliver observers notice).changes = store.changes := by
  rw [changes, trace_deliver, List.filterMap_append, List.filterMap_map]
  simp [Function.comp_def, Event.change?, changes]

theorem Gains.trans {store middle later : Store} {changes further : List Change}
    (gains : store.Gains middle changes) (gains' : middle.Gains later further) :
    store.Gains later (changes ++ further) where
  recorded := by rw [gains'.recorded, gains.recorded, List.append_assoc]
  disk := by
    rw [gains'.disk, gains.disk]
    exact List.foldl_append.symm

theorem gains_changeAll (store : Store) (changes : List Change) :
    store.Gains (store.changeAll changes) changes :=
  ⟨store.changes_changeAll changes, store.disk_changeAll changes⟩

namespace Passes

variable {holds : Disk → Prop} {store middle later : Store}

theorem refl (here : holds store.disk) : store.Passes holds store :=
  ⟨[], ⟨(List.append_nil _).symm, rfl⟩, .nil here⟩

theorem trans (first : store.Passes holds middle) (second : middle.Passes holds later) :
    store.Passes holds later := by
  obtain ⟨changes, gains, always⟩ := first
  obtain ⟨further, gains', always'⟩ := second
  rw [gains.disk] at always'
  exact ⟨changes ++ further, gains.trans gains', always.append always'⟩

theorem first (passes : store.Passes holds later) : holds store.disk := by
  obtain ⟨changes, -, always⟩ := passes
  exact always.first

theorem last (passes : store.Passes holds later) : holds later.disk := by
  obtain ⟨changes, gains, always⟩ := passes
  rw [gains.disk]
  exact always.last

theorem mono {weaker : Disk → Prop} (passes : store.Passes holds later)
    (weakened : ∀ disk, holds disk → weaker disk) : store.Passes weaker later := by
  obtain ⟨changes, gains, always⟩ := passes
  exact ⟨changes, gains, always.mono weakened⟩

theorem changeAll {changes : List Change} (always : store.disk.Always holds changes) :
    store.Passes holds (store.changeAll changes) :=
  ⟨changes, store.gains_changeAll changes, always⟩

theorem deliver (here : holds store.disk) (observers : Nat) (notice : Notice) :
    store.Passes holds (store.deliver observers notice) :=
  ⟨[], ⟨by rw [changes_deliver, List.append_nil], rfl⟩, .nil here⟩

end Passes

end Store

end SortedTable

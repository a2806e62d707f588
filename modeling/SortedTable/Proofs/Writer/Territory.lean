import SortedTable.Proofs.Writer.Instants
import SortedTable.Proofs.Writer.Progress

namespace SortedTable

/-- No file has two paths. -/
def Disk.IsSingle (disk : Disk) : Prop :=
  ∀ path other id, disk.node? path = some (.file id) → disk.node? other = some (.file id) →
    path = other

theorem Disk.isSingle_empty : Disk.empty.IsSingle := by
  intro path other id held
  unfold node? at held
  split at held <;> cases held

theorem Disk.AddsFolders.isSingle {disk later : Disk} (adds : disk.AddsFolders later)
    (single : disk.IsSingle) : later.IsSingle := fun path other id held held' =>
  single path other id (adds.node?_eq_file_iff.1 held) (adds.node?_eq_file_iff.1 held')

/-- In one folder a path belongs to one table at most. -/
theorem Descriptor.Owns.unique {left right : Descriptor} {folder path : Path}
    (directory : left.directory = right.directory) (owned : left.Owns folder path)
    (owned' : right.Owns folder path) : left = right := by
  obtain ⟨isFinal, component, below⟩ := owned
  obtain ⟨isFinal', other, below'⟩ := owned'
  have front := List.prefix_of_prefix_length_le below below' (by simp)
  have same := front.eq_of_length (by simp)
  rw [List.append_right_inj, List.singleton_inj] at same
  exact (nameOf_inj directory same).1

/-- At most what stands under the names of a table was changed, and new files were made there alone. -/
structure Descriptor.Tends (descriptor : Descriptor) (folder : Path) (disk later : Disk) : Prop where
  nodes : ∀ path, ¬descriptor.Owns folder path → later.node? path = disk.node? path
  kept : ∀ path id, ¬descriptor.Owns folder path → disk.node? path = some (.file id) →
    later.content id = disk.content id
  origin : ∀ path id, descriptor.Owns folder path → later.node? path = some (.file id) →
    disk.contents.size ≤ id ∨
      ∃ before, descriptor.Owns folder before ∧ disk.node? before = some (.file id)
  grown : disk.contents.size ≤ later.contents.size
  opens : ∀ path, disk.IsOpen path → later.IsOpen path

namespace Descriptor.Tends

variable {descriptor : Descriptor} {folder : Path} {disk middle later : Disk}

theorem refl (descriptor : Descriptor) (folder : Path) (disk : Disk) :
    descriptor.Tends folder disk disk where
  nodes _ _ := rfl
  kept _ _ _ _ := rfl
  origin path _ owned held := .inr ⟨path, owned, held⟩
  grown := Nat.le_refl _
  opens _ isOpen := isOpen

theorem trans (first : descriptor.Tends folder disk middle)
    (second : descriptor.Tends folder middle later) : descriptor.Tends folder disk later where
  nodes path other := (second.nodes path other).trans (first.nodes path other)
  kept path id other held :=
    (second.kept path id other ((first.nodes path other).trans held)).trans
      (first.kept path id other held)
  origin path id owned held := by
    rcases second.origin path id owned held with recent | ⟨before, owned', held'⟩
    · exact .inl (Nat.le_trans first.grown recent)
    · exact first.origin before id owned' held'
  grown := Nat.le_trans first.grown second.grown
  opens path isOpen := second.opens path (first.opens path isOpen)

/-- A path that is not under a name of the table leads to the same bytes as before. -/
theorem file? (tends : descriptor.Tends folder disk later) {path : Path}
    (other : ¬descriptor.Owns folder path) : later.file? path = disk.file? path := by
  unfold Disk.file?
  rw [tends.nodes path other]
  rcases held : disk.node? path with - | - | id
  · rfl
  · rfl
  · exact congrArg some (tends.kept path id other held)

/-- Bytes written to a file without a path outside the table are a change of the table. -/
theorem write (tends : descriptor.Tends folder disk later) {id : Nat}
    (own : ∀ path, disk.node? path = some (.file id) → descriptor.Owns folder path)
    (offset : Nat) (bytes : Bytes) :
    descriptor.Tends folder disk (later.apply (.write id offset bytes)) where
  nodes := tends.nodes
  kept path file other held := by
    rw [Disk.content_write_of_ne]
    · exact tends.kept path file other held
    · rintro rfl
      exact other (own path held)
  origin := tends.origin
  grown := Nat.le_trans tends.grown (Disk.size_apply_le later _)
  opens path isOpen := tends.opens path isOpen

end Descriptor.Tends

namespace Stage

/-- No file has two paths, and the files that are open have none outside the table. -/
structure KeepsTo (descriptor : Descriptor) (folder : Path) (stage : Stage) : Prop where
  single : stage.store.disk.IsSingle
  inside : ∀ output ∈ stage.outputs, output.file < stage.store.disk.contents.size
  own : ∀ output ∈ stage.outputs, ∀ path,
    stage.store.disk.node? path = some (.file output.file) → descriptor.Owns folder path

/-- A stage that differs from an earlier one in the table alone, and keeps to it. -/
structure Changes (descriptor : Descriptor) (folder : Path) (stage later : Stage) : Prop where
  tends : descriptor.Tends folder stage.store.disk later.store.disk
  keeps : later.KeepsTo descriptor folder

/-- A stage that came from an earlier one by changes of its table alone. -/
structure Continues (descriptor : Descriptor) (folder : Path) (stage later : Stage) : Prop where
  passes : stage.store.Passes (descriptor.Tends folder stage.store.disk) later.store
  keeps : later.KeepsTo descriptor folder

namespace Continues

variable {descriptor : Descriptor} {folder : Path} {stage middle later : Stage}

theorem tends (continues : Continues descriptor folder stage later) :
    descriptor.Tends folder stage.store.disk later.store.disk :=
  continues.passes.last

theorem trans (first : Continues descriptor folder stage middle)
    (second : Continues descriptor folder middle later) : Continues descriptor folder stage later :=
  ⟨first.passes.trans (second.passes.mono fun _ => first.tends.trans), second.keeps⟩

end Continues

namespace KeepsTo

variable {descriptor : Descriptor} {folder : Path} {stage later : Stage}

theorem refl (keeps : stage.KeepsTo descriptor folder) : Continues descriptor folder stage stage :=
  ⟨.refl (.refl ..), keeps⟩

theorem creates (keeps : stage.KeepsTo descriptor folder) {component : Component} {id : Nat}
    (made : stage.store.disk.Creates later.store.disk
      (folder ++ [descriptor.nameOf false component]) id)
    (outputs : later.outputs = stage.outputs ++ [{ component := component, file := id }]) :
    Changes descriptor folder stage later := by
  have owned := descriptor.owns_nameOf folder false component
  have other {path : Path} {file : Nat}
      (differs : path ≠ folder ++ [descriptor.nameOf false component])
      (held : stage.store.disk.node? path = some (.file file)) : file ≠ id := by
    rintro rfl
    rcases made.origin with taken | ⟨-, size⟩
    · exact differs (keeps.single _ _ _ held taken)
    · have inside := Disk.lt_size_of_node? held
      omega
  -- A path of the made file afterwards is the one that it was made under.
  have only {path : Path} (held : later.store.disk.node? path = some (.file id)) :
      path = folder ++ [descriptor.nameOf false component] := by
    by_contra differs
    rw [made.others path differs] at held
    exact other differs held rfl
  have before {path : Path} {file : Nat} (differs : file ≠ id)
      (held : later.store.disk.node? path = some (.file file)) :
      stage.store.disk.node? path = some (.file file) := by
    rwa [made.others] at held
    rintro rfl
    rw [made.held] at held
    cases held
    exact differs rfl
  refine ⟨⟨?_, ?_, ?_, made.grown, fun _ => made.isOpen⟩, ⟨?_, ?_, ?_⟩⟩
  · exact fun path outside => made.others path fun same => outside (same ▸ owned)
  · intro path file outside held
    refine made.kept file (other ?_ held)
    rintro rfl
    exact outside owned
  · intro path file below held
    by_cases same : file = id
    · subst same
      rcases made.origin with taken | ⟨-, size⟩
      · exact .inr ⟨_, owned, taken⟩
      · exact .inl (Nat.le_of_eq size.symm)
    · exact .inr ⟨path, below, before same held⟩
  · intro path path' file held held'
    by_cases same : file = id
    · subst same
      exact (only held).trans (only held').symm
    · exact keeps.single _ _ _ (before same held) (before same held')
  · intro output member
    rw [outputs] at member
    rcases List.mem_append.1 member with member | member
    · exact Nat.lt_of_lt_of_le (keeps.inside output member) made.grown
    · rw [List.mem_singleton.1 member]
      exact Disk.lt_size_of_node? made.held
  · intro output member path held
    by_cases same : output.file = id
    · rw [same] at held
      rw [only held]
      exact owned
    · rw [outputs] at member
      rcases List.mem_append.1 member with member | member
      · exact keeps.own output member path (before same held)
      · rw [List.mem_singleton.1 member] at same
        exact absurd rfl same

theorem writes (keeps : stage.KeepsTo descriptor folder) {output : Output}
    (member : output ∈ stage.outputs)
    (wrote : stage.store.disk.Writes later.store.disk output.file)
    (outputs : ∀ next ∈ later.outputs, ∃ held ∈ stage.outputs, next.file = held.file) :
    Changes descriptor folder stage later := by
  refine ⟨⟨fun path _ => wrote.nodes path, ?_, ?_, Nat.le_of_eq wrote.size.symm, ?_⟩, ⟨?_, ?_, ?_⟩⟩
  · intro path id outside held
    apply wrote.kept
    rintro rfl
    exact outside (keeps.own output member path held)
  · intro path id below held
    exact .inr ⟨path, below, (wrote.nodes path).symm.trans held⟩
  · exact fun path isOpen front below => (wrote.nodes front).trans (isOpen front below)
  · intro path other id held held'
    rw [wrote.nodes] at held held'
    exact keeps.single path other id held held'
  · intro next present
    obtain ⟨held, inside, same⟩ := outputs next present
    rw [same, wrote.size]
    exact keeps.inside held inside
  · intro next present path held
    obtain ⟨before, inside, same⟩ := outputs next present
    rw [same, wrote.nodes] at held
    exact keeps.own before inside path held

theorem moves (keeps : stage.KeepsTo descriptor folder) {component : Component} {id : Nat}
    (moved : stage.store.disk.Moves later.store.disk
      (folder ++ [descriptor.nameOf false component])
      (folder ++ [descriptor.nameOf true component]) id)
    (outputs : later.outputs = stage.outputs) : Changes descriptor folder stage later := by
  refine ⟨⟨?_, ?_, ?_, ?_, fun _ => moved.isOpen⟩, ⟨?_, ?_, ?_⟩⟩
  · exact fun path outside => moved.others path (fun below => outside ⟨false, component, below⟩)
      fun below => outside ⟨true, component, below⟩
  · intro path file _ _
    rw [Disk.content, moved.contents, Disk.content]
  · intro path file below held
    rcases moved.origin path file held with ⟨-, before⟩ | ⟨rest, -, before⟩
    · exact .inr ⟨path, below, before⟩
    · exact .inr ⟨_, ⟨false, component, List.prefix_append _ rest⟩, before⟩
  · exact Nat.le_of_eq (congrArg Array.size moved.contents.symm)
  · intro path other file held held'
    rcases moved.origin path file held with ⟨away, before⟩ | ⟨rest, rfl, before⟩ <;>
      rcases moved.origin other file held' with ⟨away', before'⟩ | ⟨rest', rfl, before'⟩
    · exact keeps.single path other file before before'
    · rw [keeps.single _ _ _ before before'] at away
      exact absurd (List.prefix_append _ rest') away
    · rw [keeps.single _ _ _ before' before] at away'
      exact absurd (List.prefix_append _ rest) away'
    · rw [List.append_cancel_left (keeps.single _ _ _ before before')]
  · rw [outputs, moved.contents]
    exact keeps.inside
  · intro output member path held
    rw [outputs] at member
    rcases moved.origin path _ held with ⟨-, before⟩ | ⟨rest, rfl, -⟩
    · exact keeps.own output member path before
    · exact ⟨true, component, List.prefix_append _ rest⟩

/-- Every step of a writer changes its own table alone, whether it succeeds or not. -/
theorem effect (keeps : stage.KeepsTo descriptor folder)
    (effect : Effect descriptor folder stage later) : Changes descriptor folder stage later := by
  cases effect with
  | still disk created outputs =>
      constructor
      · rw [disk]
        exact .refl ..
      · refine ⟨?_, ?_, ?_⟩
        · rw [disk]
          exact keeps.single
        · rw [disk, outputs]
          exact keeps.inside
        · rw [disk, outputs]
          exact keeps.own
  | creates component id text made created outputs => exact keeps.creates made outputs
  | writes output member wrote created outputs => exact keeps.writes member wrote outputs
  | moves component id moved created outputs => exact keeps.moves moved outputs

variable {setting : Setting} {base : Disk} {drafts next : Drafts}

/-- A step that the drafts allow changes the table alone, at every instant and even if it fails. -/
theorem perform (keeps : stage.KeepsTo setting.descriptor folder)
    (stands : stage.Stands setting folder base drafts) {step : Step}
    (allowed : drafts.step step = some next) :
    Continues setting.descriptor folder stage (stage.perform setting step).1 := by
  have plain (component : Component) (same : step = .rename component) :
      stage.store.disk.node? (folder ++ [setting.descriptor.nameOf false component]) ≠
        some .folder := by
    subst same
    rw [Drafts.step] at allowed
    split at allowed
    · rename_i held
      exact stands.plain held
    · cases allowed
  obtain ⟨tends, kept⟩ := keeps.effect (effect_perform stands.stays step plain)
  have here := Descriptor.Tends.refl setting.descriptor folder stage.store.disk
  refine ⟨?_, kept⟩
  cases step with
  | notify notice => exact .deliver here setting.observers notice
  | create component => exact passes_create component here tends
  | write component bytes =>
      change stage.store.Passes _ (stage.write setting component bytes).1.store
      unfold write
      split
      · exact .refl here
      · rename_i output found
        have own := keeps.own output (mem_of_output? found).1
        dsimp only
        split
        · exact passes_absorb _ (fun _ offset bytes tends => tends.write own offset bytes) here _
        · exact .refl here
  | close component =>
      change stage.store.Passes _ (stage.close setting component).1.store
      unfold close
      split
      · exact .refl here
      · rename_i output found
        have own := keeps.own output (mem_of_output? found).1
        exact passes_drain output (fun _ offset bytes tends => tends.write own offset bytes) here
  | rename component => exact passes_rename component here tends

theorem performAll (keeps : stage.KeepsTo setting.descriptor folder)
    (stands : stage.Stands setting folder base drafts) {steps : List Step}
    (allowed : drafts.steps steps = some next) :
    Continues setting.descriptor folder stage (stage.performAll setting steps).1 := by
  induction steps generalizing stage drafts with
  | nil => exact keeps.refl
  | cons step rest ih =>
      obtain ⟨middle, first, further⟩ := Option.bind_eq_some_iff.1 allowed
      have one := keeps.perform stands first
      rw [Stage.performAll]
      split
      · rename_i failed
        rwa [failed] at one
      · rename_i performed
        rw [performed] at one
        exact one.trans (ih one.keeps (stands.perform first performed) further)

/-- A script that the drafts allow changes the table alone, however far it comes. -/
theorem run (keeps : stage.KeepsTo setting.descriptor folder)
    (stands : stage.Stands setting folder base drafts) {script : Script}
    (allowed : drafts.steps script.steps = some next) :
    Continues setting.descriptor folder stage (stage.run setting script).1 := by
  rw [fst_run]
  exact keeps.performAll stands allowed

theorem drain (keeps : stage.KeepsTo descriptor folder) {outputs : List Output}
    (all : ∀ output ∈ outputs, output ∈ stage.outputs) :
    Continues descriptor folder stage
      { stage with store := outputs.foldl Stage.drain stage.store } := by
  induction outputs generalizing stage with
  | nil => exact keeps.refl
  | cons output rest ih =>
      have member := all output List.mem_cons_self
      obtain ⟨next, carries⟩ := carries_drain stage.store output
      have passes := passes_drain output
        (fun _ offset bytes tends => tends.write (keeps.own output member) offset bytes)
        (Descriptor.Tends.refl descriptor folder stage.store.disk)
      have wrote : Changes descriptor folder stage
          { stage with store := Stage.drain stage.store output } :=
        keeps.writes member carries.writes fun held present => ⟨held, present, rfl⟩
      have drained : Continues descriptor folder stage
          { stage with store := Stage.drain stage.store output } := ⟨passes, wrote.keeps⟩
      exact drained.trans (ih drained.keeps fun other present =>
        all other (List.mem_cons_of_mem _ present))

/-- Removing a file of the table leaves the other paths. -/
theorem removes (keeps : stage.KeepsTo descriptor folder) {isFinal : Bool} {component : Component}
    {id : Nat}
    (taken : stage.store.disk.node? (folder ++ [descriptor.nameOf isFinal component]) =
      some (.file id)) {store : Store}
    (removed : store.disk =
      stage.store.disk.apply (.remove (folder ++ [descriptor.nameOf isFinal component]))) :
    Changes descriptor folder stage { stage with store := store } := by
  have proper := Path.isProper_concat folder (descriptor.isName_nameOf isFinal component).proper
  -- What has a path afterwards had it before.
  have before {path : Path} {node : Node} (held : store.disk.node? path = some node) :
      stage.store.disk.node? path = some node := by
    rw [removed] at held
    rwa [Disk.node?_remove_of_ne] at held
    rintro rfl
    rw [Disk.node?_remove_self proper] at held
    cases held
  refine ⟨⟨?_, ?_, ?_, ?_, ?_⟩, ⟨?_, ?_, ?_⟩⟩
  · intro path outside
    rw [removed]
    apply Disk.node?_remove_of_ne
    rintro rfl
    exact outside (descriptor.owns_nameOf folder isFinal component)
  · intro path file _ _
    rw [removed]
    rfl
  · exact fun path file below held => .inr ⟨path, below, before held⟩
  · rw [removed]
    exact Disk.size_apply_le _ _
  · intro path isOpen front below
    rw [removed, Disk.node?_remove_of_ne, isOpen front below]
    rintro rfl
    have folder := isOpen _ below
    rw [taken] at folder
    cases folder
  · exact fun path other file held held' =>
      keeps.single path other file (before held) (before held')
  · dsimp only
    rw [removed]
    exact fun output member => keeps.inside output member
  · exact fun output member path held => keeps.own output member path (before held)

theorem discard (keeps : stage.KeepsTo descriptor folder)
    (resides : descriptor.ResidesIn stage.store.disk folder) (isFinal : Bool)
    (component : Component) :
    Continues descriptor folder stage
      { stage with store := Stage.discard stage.store (descriptor.pathOf isFinal component) } := by
  have changes : Changes descriptor folder stage
      { stage with store := Stage.discard stage.store (descriptor.pathOf isFinal component) } := by
    rcases disk_discard descriptor stage.store isFinal component with
      same | ⟨folder', id, resides', taken, removed⟩
    · exact keeps.effect (.still same rfl rfl)
    · obtain rfl := resides.unique resides'
      exact keeps.removes taken removed
  exact ⟨passes_discard_of_last (.refl ..) changes.tends, changes.keeps⟩

/-- A stage that is cleared changes its own table alone. -/
theorem clear (keeps : stage.KeepsTo setting.descriptor folder)
    (resides : setting.descriptor.ResidesIn stage.store.disk folder) :
    stage.store.Passes (setting.descriptor.Tends folder stage.store.disk) (stage.clear setting) ∧
      (stage.clear setting).disk.IsSingle := by
  have cleared (components : List Component) {stage : Stage}
      (keeps : stage.KeepsTo setting.descriptor folder)
      (resides : setting.descriptor.ResidesIn stage.store.disk folder) :
      Continues setting.descriptor folder stage { stage with
        store := components.foldl (fun store component =>
          Stage.discard (Stage.discard store (setting.descriptor.temporaryPath component))
            (setting.descriptor.finalPath component)) stage.store } := by
    induction components generalizing stage with
    | nil => exact keeps.refl
    | cons component rest ih =>
        have first := keeps.discard resides false component
        have both := first.trans
          (first.keeps.discard (resides.of_isOpen first.tends.opens) true component)
        exact both.trans (ih both.keeps (resides.of_isOpen both.tends.opens))
  have drained := keeps.drain fun _ member => member
  have whole := drained.trans
    (cleared stage.created drained.keeps (resides.of_isOpen drained.tends.opens))
  exact ⟨whole.passes, whole.keeps.single⟩

end KeepsTo

/-- A writer that gives up behind a script has changed its own table alone. -/
theorem Continues.clear {setting : Setting} {folder : Path} {stage later : Stage}
    (continues : Continues setting.descriptor folder stage later)
    (resides : setting.descriptor.ResidesIn stage.store.disk folder) :
    stage.store.Passes (setting.descriptor.Tends folder stage.store.disk) (later.clear setting) ∧
      (later.clear setting).disk.IsSingle := by
  obtain ⟨passes, single⟩ := continues.keeps.clear (resides.of_isOpen continues.tends.opens)
  exact ⟨continues.passes.trans (passes.mono fun _ => continues.tends.trans), single⟩

end Stage

end SortedTable

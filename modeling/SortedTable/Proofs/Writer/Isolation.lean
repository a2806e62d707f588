import SortedTable.Proofs.Disk.Folders
import SortedTable.Proofs.Writer.Effect

namespace SortedTable

/-- In a folder without names those of a table are vacant. -/
theorem Descriptor.isVacant_of_names {descriptor : Descriptor} {disk : Disk}
    (listed : disk.names descriptor.directory = .ok []) : descriptor.IsVacant disk := by
  intro folder resides isFinal component
  obtain ⟨other, located, bare⟩ := Disk.vacant_of_names listed
  obtain rfl := Except.ok.inj (resides.symm.trans (Disk.enter_of_locate located))
  exact bare _ (descriptor.isName_nameOf isFinal component).proper

/-- A disk was changed at most under the names of a table in a folder and in new files. -/
structure Descriptor.Spares (descriptor : Descriptor) (folder : Path) (base disk : Disk) : Prop where
  nodes : ∀ path, ¬descriptor.Owns folder path → disk.node? path = base.node? path
  kept : ∀ id, id < base.contents.size → disk.content id = base.content id
  grown : base.contents.size ≤ disk.contents.size

namespace Descriptor.Spares

variable {descriptor : Descriptor} {folder : Path} {base disk : Disk}

/-- A path that is not under a name of the table leads to the same file as before. -/
theorem file? (spares : descriptor.Spares folder base disk) {path : Path}
    (other : ¬descriptor.Owns folder path) : disk.file? path = base.file? path := by
  unfold Disk.file?
  rw [spares.nodes path other]
  rcases held : base.node? path with - | - | id
  · rfl
  · rfl
  · exact congrArg some (spares.kept id (Disk.lt_size_of_node? held))

/-- A further change under the names of the table and in new files is one change with the first. -/
theorem further (spares : descriptor.Spares folder base disk) {later : Disk}
    (nodes : ∀ path, ¬descriptor.Owns folder path → later.node? path = disk.node? path)
    (kept : ∀ id, id < base.contents.size → later.content id = disk.content id)
    (grown : disk.contents.size ≤ later.contents.size) :
    descriptor.Spares folder base later where
  nodes path other := (nodes path other).trans (spares.nodes path other)
  kept id old := (kept id old).trans (spares.kept id old)
  grown := Nat.le_trans spares.grown grown

/-- A name of another table in the same folder holds what it held. -/
theorem node?_nameOf (spares : descriptor.Spares folder base disk) {other : Descriptor}
    (directory : other.directory = descriptor.directory) (different : other ≠ descriptor)
    (isFinal : Bool) (component : Component) :
    disk.node? (folder ++ [other.nameOf isFinal component]) =
      base.node? (folder ++ [other.nameOf isFinal component]) := by
  apply spares.nodes
  intro owned
  obtain ⟨_, _, equal⟩ := exists_nameOf_of_owns owned
  exact different (Descriptor.nameOf_inj directory.symm equal).1.symm

/-- Where the names of the table were vacant, all open folders stay open. -/
theorem isOpen (spares : descriptor.Spares folder base disk)
    (vacant : ∀ isFinal component,
      base.node? (folder ++ [descriptor.nameOf isFinal component]) = none) {path : Path}
    (isOpen : base.IsOpen path) : disk.IsOpen path := by
  intro front below
  have other : ¬descriptor.Owns folder front := by
    rintro ⟨isFinal, component, owned⟩
    have there := isOpen _ (owned.trans below)
    rw [vacant] at there
    cases there
  rw [spares.nodes front other]
  exact isOpen front below

end Descriptor.Spares

namespace Stage

/-- The stage of a writer that began on the disk `base`, where the names of its table were vacant. -/
structure Isolated (descriptor : Descriptor) (folder : Path) (base : Disk) (stage : Stage) : Prop where
  resides : descriptor.ResidesIn base folder
  vacant : ∀ isFinal component, base.node? (folder ++ [descriptor.nameOf isFinal component]) = none
  spares : descriptor.Spares folder base stage.store.disk
  fresh : ∀ output ∈ stage.outputs, base.contents.size ≤ output.file
  own : ∀ isFinal component,
    stage.store.disk.node? (folder ++ [descriptor.nameOf isFinal component]) = none ∨
      component ∈ stage.created ∧ ∃ id, base.contents.size ≤ id ∧
        stage.store.disk.node? (folder ++ [descriptor.nameOf isFinal component]) = some (.file id)
  text : ∀ component ∈ stage.created, Path.IsText (descriptor.pathOf false component)

namespace Isolated

variable {descriptor : Descriptor} {folder : Path} {base : Disk} {stage later : Stage}

theorem start {store : Store} (resides : descriptor.ResidesIn store.disk folder)
    (vacant : descriptor.IsVacant store.disk) :
    Isolated descriptor folder store.disk ⟨store, [], []⟩ where
  resides := resides
  vacant := vacant folder resides
  spares := ⟨fun _ _ => rfl, fun _ _ => rfl, Nat.le_refl _⟩
  fresh := nofun
  own isFinal component := .inl (vacant folder resides isFinal component)
  text := nofun

/-- The folder of the table stays where it was. -/
theorem stays (isolated : Isolated descriptor folder base stage) :
    descriptor.ResidesIn stage.store.disk folder :=
  isolated.resides.of_isOpen fun _ => isolated.spares.isOpen isolated.vacant

theorem plain (isolated : Isolated descriptor folder base stage) (isFinal : Bool)
    (component : Component) :
    stage.store.disk.node? (folder ++ [descriptor.nameOf isFinal component]) ≠ some .folder := by
  rcases isolated.own isFinal component with nothing | ⟨-, id, -, held⟩
  · rw [nothing]
    exact nofun
  · rw [held]
    exact nofun

theorem creates {component : Component} {id : Nat} (isolated : Isolated descriptor folder base stage)
    (text : Path.IsText (descriptor.pathOf false component))
    (made : stage.store.disk.Creates later.store.disk
      (folder ++ [descriptor.nameOf false component]) id)
    (created : later.created = stage.created ++ [component])
    (outputs : later.outputs = stage.outputs ++ [{ component := component, file := id }]) :
    Isolated descriptor folder base later := by
  have recent : base.contents.size ≤ id := by
    rcases made.origin with held | ⟨-, rfl⟩
    · rcases isolated.own false component with nothing | ⟨-, other, recent, held'⟩
      · rw [nothing] at held
        cases held
      · rw [held] at held'
        cases held'
        exact recent
    · exact isolated.spares.grown
  have spares := isolated.spares.further
    (fun path other => made.others path fun same => other (same ▸ descriptor.owns_nameOf ..))
    (fun file old => made.kept file (by omega)) made.grown
  refine ⟨isolated.resides, isolated.vacant, spares, ?_, ?_, ?_⟩
  · intro output member
    rw [outputs] at member
    rcases List.mem_append.1 member with member | member
    · exact isolated.fresh output member
    · rw [List.mem_singleton.1 member]
      exact recent
  · intro isFinal other
    rw [created]
    by_cases same : isFinal = false ∧ other = component
    · obtain ⟨rfl, rfl⟩ := same
      exact .inr ⟨by simp, id, recent, made.held⟩
    · rw [made.others]
      · rcases isolated.own isFinal other with nothing | ⟨member, held⟩
        · exact .inl nothing
        · exact .inr ⟨List.mem_append_left _ member, held⟩
      · intro equal
        exact same (Descriptor.eq_of_concat_nameOf equal)
  · intro other member
    rw [created] at member
    rcases List.mem_append.1 member with member | member
    · exact isolated.text other member
    · rw [List.mem_singleton.1 member]
      exact text

theorem writes {output : Output} (isolated : Isolated descriptor folder base stage)
    (member : output ∈ stage.outputs)
    (wrote : stage.store.disk.Writes later.store.disk output.file)
    (created : later.created = stage.created)
    (outputs : ∀ next ∈ later.outputs, ∃ held ∈ stage.outputs, next.file = held.file) :
    Isolated descriptor folder base later := by
  have recent := isolated.fresh output member
  have spares := isolated.spares.further (fun path _ => wrote.nodes path)
    (fun file old => wrote.kept file (by omega)) (Nat.le_of_eq wrote.size.symm)
  refine ⟨isolated.resides, isolated.vacant, spares, ?_, ?_, ?_⟩
  · intro next present
    obtain ⟨held, inside, same⟩ := outputs next present
    rw [same]
    exact isolated.fresh held inside
  · intro isFinal component
    rw [wrote.nodes, created]
    exact isolated.own isFinal component
  · rw [created]
    exact isolated.text

theorem moves {component : Component} {id : Nat} (isolated : Isolated descriptor folder base stage)
    (moved : stage.store.disk.Moves later.store.disk
      (folder ++ [descriptor.nameOf false component])
      (folder ++ [descriptor.nameOf true component]) id)
    (created : later.created = stage.created) (outputs : later.outputs = stage.outputs) :
    Isolated descriptor folder base later := by
  have origin : component ∈ stage.created ∧ base.contents.size ≤ id := by
    rcases isolated.own false component with nothing | ⟨member, other, recent, held⟩
    · rw [moved.taken] at nothing
      cases nothing
    · rw [moved.taken] at held
      cases held
      exact ⟨member, recent⟩
  have spares := isolated.spares.further
    (fun path other => moved.others path (fun below => other ⟨false, component, below⟩)
      fun below => other ⟨true, component, below⟩)
    (fun file _ => by rw [Disk.content, moved.contents, Disk.content])
    (Nat.le_of_eq (congrArg Array.size moved.contents.symm))
  refine ⟨isolated.resides, isolated.vacant, spares, ?_, ?_, ?_⟩
  · rw [outputs]
    exact isolated.fresh
  · intro isFinal other
    rw [created]
    by_cases same : other = component
    · subst same
      cases isFinal with
      | false => exact .inl moved.gone
      | true => exact .inr ⟨origin.1, id, origin.2, moved.held⟩
    · rw [moved.others _ (Descriptor.not_isPrefix_of_ne (.inr (Ne.symm same)))
        (Descriptor.not_isPrefix_of_ne (.inr (Ne.symm same)))]
      exact isolated.own isFinal other
  · rw [created]
    exact isolated.text

/-- Every step of a writer keeps it isolated, whether it succeeds or not. -/
theorem effect (isolated : Isolated descriptor folder base stage)
    (effect : Effect descriptor folder stage later) : Isolated descriptor folder base later := by
  cases effect with
  | still disk created outputs =>
      refine ⟨isolated.resides, isolated.vacant, ?_, ?_, ?_, ?_⟩
      · rw [disk]
        exact isolated.spares
      · rw [outputs]
        exact isolated.fresh
      · rw [disk, created]
        exact isolated.own
      · rw [created]
        exact isolated.text
  | creates component id text made created outputs =>
      exact isolated.creates text made created outputs
  | writes output member wrote created outputs =>
      exact isolated.writes member wrote created outputs
  | moves component id moved created outputs => exact isolated.moves moved created outputs

variable {setting : Setting}

theorem perform (isolated : Isolated setting.descriptor folder base stage) (step : Step) :
    Isolated setting.descriptor folder base (stage.perform setting step).1 :=
  isolated.effect (effect_perform isolated.stays step fun component _ =>
    isolated.plain false component)

theorem performAll (isolated : Isolated setting.descriptor folder base stage) (steps : List Step) :
    Isolated setting.descriptor folder base (stage.performAll setting steps).1 := by
  induction steps generalizing stage with
  | nil => exact isolated
  | cons step rest ih =>
      have next := isolated.perform step
      rw [Stage.performAll]
      split
      · rename_i failed
        rwa [failed] at next
      · rename_i done
        rw [done] at next
        exact ih next

theorem run (isolated : Isolated setting.descriptor folder base stage) (script : Script) :
    Isolated setting.descriptor folder base (stage.run setting script).1 := by
  have all := isolated.performAll script.steps
  rw [Stage.run]
  split
  · rename_i failed
    rwa [failed] at all
  · rename_i done
    rwa [done] at all

theorem drain (isolated : Isolated descriptor folder base stage) {outputs : List Output}
    (all : ∀ output ∈ outputs, output ∈ stage.outputs) :
    Isolated descriptor folder base
      { stage with store := outputs.foldl Stage.drain stage.store } := by
  induction outputs generalizing stage with
  | nil => exact isolated
  | cons output rest ih =>
      have member := all output List.mem_cons_self
      obtain ⟨next, carries⟩ := carries_drain stage.store output
      have drained : Isolated descriptor folder base
          { stage with store := Stage.drain stage.store output } :=
        isolated.writes member carries.writes rfl fun held present => ⟨held, present, rfl⟩
      exact ih drained fun other present => all other (List.mem_cons_of_mem _ present)

/-- Removing a file of the writer leaves nothing under its name. -/
theorem clears (isolated : Isolated descriptor folder base stage) {isFinal : Bool}
    {component : Component} (text : Path.IsText (descriptor.pathOf isFinal component)) :
    stage.store.disk.Clears (discard stage.store (descriptor.pathOf isFinal component)).disk
      (folder ++ [descriptor.nameOf isFinal component]) := by
  have cleared := Disk.clears_of_remove (descriptor.isName_nameOf isFinal component).proper
    (descriptor.utf8ByteSize_nameOf_le isFinal component) (isolated.stays.place text)
    (isolated.plain isFinal component)
  unfold discard Store.perform
  dsimp only
  cases outcome : stage.store.disk.remove (descriptor.pathOf isFinal component) with
  | error cause =>
      rw [outcome] at cleared
      exact cleared
  | ok changes =>
      rw [outcome] at cleared
      dsimp only [Except.map]
      rwa [Store.disk_changeAll]

theorem clear_one (isolated : Isolated descriptor folder base stage) {isFinal : Bool}
    {component : Component} {store : Store}
    (cleared : stage.store.disk.Clears store.disk
      (folder ++ [descriptor.nameOf isFinal component])) :
    Isolated descriptor folder base { stage with store := store } := by
  have spares := isolated.spares.further
    (fun path other => cleared.others path fun same => other (same ▸ descriptor.owns_nameOf ..))
    (fun file _ => by rw [Disk.content, cleared.contents, Disk.content])
    (Nat.le_of_eq (congrArg Array.size cleared.contents.symm))
  refine ⟨isolated.resides, isolated.vacant, spares, isolated.fresh, ?_, isolated.text⟩
  · intro label other
    dsimp only
    by_cases same : folder ++ [descriptor.nameOf label other] =
        folder ++ [descriptor.nameOf isFinal component]
    · rw [same]
      exact .inl cleared.gone
    · rw [cleared.others _ same]
      exact isolated.own label other

/-- The names of components whose files were removed are vacant, and vacant names stay so. -/
theorem clear_all (isolated : Isolated descriptor folder base stage) {components : List Component}
    (all : ∀ component ∈ components, component ∈ stage.created) :
    let store := components.foldl (fun store component =>
      discard (discard store (descriptor.temporaryPath component))
        (descriptor.finalPath component)) stage.store
    Isolated descriptor folder base { stage with store := store } ∧
      ∀ isFinal component, component ∈ components ∨
        stage.store.disk.node? (folder ++ [descriptor.nameOf isFinal component]) = none →
        store.disk.node? (folder ++ [descriptor.nameOf isFinal component]) = none := by
  induction components generalizing stage with
  | nil => exact ⟨isolated, fun isFinal component gone => gone.resolve_left nofun⟩
  | cons component rest ih =>
      have text := isolated.text component (all component List.mem_cons_self)
      have first := isolated.clears text
      have half := isolated.clear_one first
      have second := half.clears (Descriptor.isText_final text)
      have whole := half.clear_one second
      obtain ⟨last, gone⟩ := ih whole fun other present =>
        all other (List.mem_cons_of_mem _ present)
      refine ⟨last, fun isFinal other reason => gone isFinal other ?_⟩
      dsimp only at second ⊢
      by_cases here : other ∈ rest
      · exact .inl here
      refine .inr ?_
      by_cases final : folder ++ [descriptor.nameOf isFinal other] =
          folder ++ [descriptor.nameOf true component]
      · rw [final]
        exact second.gone
      rw [second.others _ final]
      by_cases temporary : folder ++ [descriptor.nameOf isFinal other] =
          folder ++ [descriptor.nameOf false component]
      · rw [temporary]
        exact first.gone
      rw [first.others _ temporary]
      refine reason.resolve_left fun member => ?_
      rcases List.mem_cons.1 member with rfl | member
      · cases isFinal with
        | false => exact temporary rfl
        | true => exact final rfl
      · exact here member

/-- A writer that gives up leaves nothing under the names of its table and spares all else. -/
theorem clear (isolated : Isolated setting.descriptor folder base stage) :
    setting.descriptor.Spares folder base (stage.clear setting).disk ∧
      setting.descriptor.IsVacant (stage.clear setting).disk := by
  have drained := isolated.drain fun _ member => member
  obtain ⟨last, gone⟩ := drained.clear_all fun _ member => member
  refine ⟨last.spares, fun other resides isFinal component => ?_⟩
  obtain rfl := last.stays.unique resides
  apply gone
  by_cases member : component ∈ stage.created
  · exact .inl member
  · exact .inr ((drained.own isFinal component).resolve_right fun held => member held.1)

end Isolated

end Stage

end SortedTable

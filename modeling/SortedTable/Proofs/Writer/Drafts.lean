import SortedTable.Proofs.Writer.Effect

namespace SortedTable

/-- What the file of a component should be. -/
structure Draft where
  bytes : Bytes := []
  isOpen : Bool := true
  isFinal : Bool := false
  deriving DecidableEq, Inhabited

/-- The drafts of the components that exist. -/
abbrev Drafts := Component → Option Draft

namespace Drafts

/-- No component exists. -/
def empty : Drafts := fun _ => none

/-- The drafts after a step, if it can be taken. -/
def step (drafts : Drafts) : Step → Option Drafts
  | .notify _ => some drafts
  | .create component =>
      match drafts component with
      | none => some (Function.update drafts component (some {}))
      | some _ => none
  | .write component bytes =>
      match drafts component with
      | some ⟨before, true, isFinal⟩ =>
          some (Function.update drafts component (some ⟨before ++ bytes, true, isFinal⟩))
      | _ => none
  | .close component =>
      match drafts component with
      | some ⟨bytes, true, isFinal⟩ =>
          some (Function.update drafts component (some ⟨bytes, false, isFinal⟩))
      | _ => none
  | .rename component =>
      match drafts component with
      | some ⟨bytes, isOpen, false⟩ =>
          some (Function.update drafts component (some ⟨bytes, isOpen, true⟩))
      | _ => none

/-- The drafts after steps in order. -/
def steps (drafts : Drafts) : List Step → Option Drafts
  | [] => some drafts
  | next :: rest => (drafts.step next).bind fun drafts => drafts.steps rest

theorem steps_append (drafts : Drafts) (first second : List Step) :
    drafts.steps (first ++ second) =
      (drafts.steps first).bind fun drafts => drafts.steps second := by
  induction first generalizing drafts with
  | nil => rfl
  | cons next rest ih =>
      rw [List.cons_append, steps, steps]
      cases drafts.step next with
      | none => rfl
      | some drafts => exact ih drafts

end Drafts

/-- No two names of the table belong to the same file. -/
def Descriptor.Apart (descriptor : Descriptor) (folder : Path) (disk : Disk) : Prop :=
  ∀ isFinal component isFinal' other id,
    disk.node? (folder ++ [descriptor.nameOf isFinal component]) = some (.file id) →
    disk.node? (folder ++ [descriptor.nameOf isFinal' other]) = some (.file id) →
    isFinal = isFinal' ∧ component = other

/-- No two names of the table belong to the same file of its folder. -/
def Descriptor.IsApart (descriptor : Descriptor) (disk : Disk) : Prop :=
  ∀ folder, descriptor.ResidesIn disk folder → descriptor.Apart folder disk

theorem Descriptor.IsVacant.isApart {descriptor : Descriptor} {disk : Disk}
    (vacant : descriptor.IsVacant disk) : descriptor.IsApart disk := by
  intro folder resides isFinal component _ _ id held
  cases (vacant folder resides isFinal component).symm.trans held

namespace Descriptor.Apart

variable {descriptor : Descriptor} {folder : Path} {disk later : Disk}

theorem creates {component : Component} {id : Nat} (apart : descriptor.Apart folder disk)
    (made : disk.Creates later (folder ++ [descriptor.nameOf false component]) id) :
    descriptor.Apart folder later := by
  have before (isFinal : Bool) (other : Component) (file : Nat)
      (differs : folder ++ [descriptor.nameOf isFinal other] ≠
        folder ++ [descriptor.nameOf false component])
      (held : later.node? (folder ++ [descriptor.nameOf isFinal other]) = some (.file file)) :
      file ≠ id := by
    rw [made.others _ differs] at held
    rintro rfl
    rcases made.origin with taken | ⟨-, size⟩
    · obtain ⟨rfl, rfl⟩ := apart isFinal other false component file held taken
      exact differs rfl
    · have inside := Disk.lt_size_of_node? held
      omega
  intro isFinal first isFinal' second file held held'
  by_cases own : folder ++ [descriptor.nameOf isFinal first] =
      folder ++ [descriptor.nameOf false component]
  · by_cases own' : folder ++ [descriptor.nameOf isFinal' second] =
        folder ++ [descriptor.nameOf false component]
    · exact eq_of_concat_nameOf (own.trans own'.symm)
    · rw [own, made.held] at held
      cases held
      exact absurd rfl (before isFinal' second id own' held')
  · by_cases own' : folder ++ [descriptor.nameOf isFinal' second] =
        folder ++ [descriptor.nameOf false component]
    · rw [own', made.held] at held'
      cases held'
      exact absurd rfl (before isFinal first id own held)
    · rw [made.others _ own] at held
      rw [made.others _ own'] at held'
      exact apart isFinal first isFinal' second file held held'

theorem moves {component : Component} {id : Nat} (apart : descriptor.Apart folder disk)
    (moved : disk.Moves later (folder ++ [descriptor.nameOf false component])
      (folder ++ [descriptor.nameOf true component]) id) : descriptor.Apart folder later := by
  -- A name of the component afterwards is the final one and belongs to the moved file.
  have own (isFinal : Bool) (file : Nat)
      (held : later.node? (folder ++ [descriptor.nameOf isFinal component]) = some (.file file)) :
      isFinal = true ∧ file = id := by
    cases isFinal with
    | false =>
        rw [moved.gone] at held
        cases held
    | true =>
        rw [moved.held] at held
        cases held
        exact ⟨rfl, rfl⟩
  have before (isFinal : Bool) (other : Component) (differs : other ≠ component) :
      later.node? (folder ++ [descriptor.nameOf isFinal other]) =
        disk.node? (folder ++ [descriptor.nameOf isFinal other]) :=
    moved.others _ (not_isPrefix_of_ne (.inr differs.symm)) (not_isPrefix_of_ne (.inr differs.symm))
  intro isFinal first isFinal' second file held held'
  by_cases here : first = component <;> by_cases here' : second = component
  · subst here here'
    obtain ⟨rfl, -⟩ := own isFinal file held
    obtain ⟨rfl, -⟩ := own isFinal' file held'
    exact ⟨rfl, rfl⟩
  · subst here
    obtain ⟨-, rfl⟩ := own isFinal file held
    rw [before isFinal' second here'] at held'
    exact absurd (apart isFinal' second false first file held' moved.taken).2 here'
  · subst here'
    obtain ⟨-, rfl⟩ := own isFinal' file held'
    rw [before isFinal first here] at held
    exact absurd (apart isFinal first false second file held moved.taken).2 here
  · rw [before isFinal first here] at held
    rw [before isFinal' second here'] at held'
    exact apart isFinal first isFinal' second file held held'

end Descriptor.Apart

namespace Stage

/-- The open file of a component after the open files were exchanged for one of them. -/
theorem output?_setOutput {stage : Stage} {store : Store} {next : Output} (component : Component) :
    (({ stage with store := store } : Stage).setOutput next).output? component =
      if component = next.component then (stage.output? component).map fun _ => next
      else stage.output? component := by
  unfold setOutput output?
  dsimp only
  induction stage.outputs with
  | nil => simp
  | cons held rest ih =>
      rw [List.map_cons, List.find?_cons, List.find?_cons]
      by_cases same : held.component = next.component
      · rw [if_pos same]
        by_cases here : component = next.component
        · have own : decide (next.component = component) = true := by simp [here]
          have own' : decide (held.component = component) = true := by simp [here, same]
          rw [own, own', if_pos here]
          rfl
        · have other : decide (next.component = component) = false := by simpa using Ne.symm here
          have other' : decide (held.component = component) = false := by
            simpa [same] using Ne.symm here
          rw [other, other', ih]
      · rw [if_neg same]
        by_cases found : held.component = component
        · have different : component ≠ next.component := found ▸ same
          simp [found, different]
        · have other : decide (held.component = component) = false := by simpa using found
          rw [other, ih]

theorem output?_filter {stage : Stage} {store : Store} (closed component : Component) :
    ({ stage with
      store := store
      outputs := stage.outputs.filter fun held => held.component ≠ closed } : Stage).output?
        component = if component = closed then none else stage.output? component := by
  unfold output?
  dsimp only
  rw [List.find?_filter]
  split
  · rename_i same
    subst same
    rw [List.find?_eq_none]
    intro held _
    simp
  · rename_i other
    congr 1
    funext held
    by_cases here : held.component = component
    · simp [here, other]
    · simp [here]

theorem output?_append {stage : Stage} {store : Store} {created : List Component} {output : Output}
    (component : Component) :
    (⟨store, created, stage.outputs ++ [output]⟩ : Stage).output? component =
      (stage.output? component).or
        (if component = output.component then some output else none) := by
  unfold output?
  rw [List.find?_append]
  congr 1
  rw [List.find?_singleton]
  by_cases same : output.component = component
  · simp [same]
  · simp [same, Ne.symm same]

end Stage

/-- A stage on which the files have the names that the drafts say, in a folder of the disk `base`. -/
structure Stage.Stands (setting : Setting) (folder : Path) (base : Disk) (drafts : Drafts)
    (stage : Stage) : Prop where
  resides : setting.descriptor.ResidesIn base folder
  opens : ∀ path, base.IsOpen path → stage.store.disk.IsOpen path
  text : ∀ component, drafts component ≠ none →
    Path.IsText (setting.descriptor.pathOf false component)
  placed : ∀ component draft, drafts component = some draft → ∃ id,
    stage.store.disk.node? (folder ++ [setting.descriptor.nameOf draft.isFinal component]) =
      some (.file id)

namespace Stage.Stands

variable {setting : Setting} {folder : Path} {base : Disk} {drafts : Drafts} {stage later : Stage}

theorem stays (stands : Stands setting folder base drafts stage) :
    setting.descriptor.ResidesIn stage.store.disk folder :=
  stands.resides.of_isOpen stands.opens

/-- The names are those that the drafts say on the disk as it is, whatever it was before. -/
theorem rebase (stands : Stands setting folder base drafts stage) :
    Stands setting folder stage.store.disk drafts stage :=
  ⟨stands.stays, fun _ isOpen => isOpen, stands.text, stands.placed⟩

/-- A change of one component changes its draft. -/
theorem update (stands : Stands setting folder base drafts stage) {component : Component}
    {draft : Draft} {id : Nat}
    (opens : ∀ path, stage.store.disk.IsOpen path → later.store.disk.IsOpen path)
    (text : Path.IsText (setting.descriptor.pathOf false component))
    (nodes : ∀ isFinal other, other ≠ component →
      later.store.disk.node? (folder ++ [setting.descriptor.nameOf isFinal other]) =
        stage.store.disk.node? (folder ++ [setting.descriptor.nameOf isFinal other]))
    (node : later.store.disk.node?
      (folder ++ [setting.descriptor.nameOf draft.isFinal component]) = some (.file id)) :
    Stands setting folder base (Function.update drafts component (some draft)) later where
  resides := stands.resides
  opens path isOpen := opens path (stands.opens path isOpen)
  text other held := by
    by_cases same : other = component
    · exact same ▸ text
    · rw [Function.update_of_ne same] at held
      exact stands.text other held
  placed other found held := by
    by_cases same : other = component
    · subst same
      rw [Function.update_self] at held
      cases held
      exact ⟨id, node⟩
    · rw [Function.update_of_ne same] at held
      rw [nodes _ other same]
      exact stands.placed other found held

theorem create (stands : Stands setting folder base drafts stage) {component : Component}
    (done : stage.create setting component = (later, none)) :
    Stands setting folder base (Function.update drafts component (some {})) later := by
  obtain ⟨id, text, made, -, -⟩ := creates_of_create stands.stays done
  refine stands.update (fun path isOpen => made.isOpen isOpen) text (fun isFinal other differs => ?_)
    made.held
  apply made.others
  intro same
  exact differs (Descriptor.eq_of_concat_nameOf same).2

/-- The unfinished file of a component is no folder. -/
theorem plain (stands : Stands setting folder base drafts stage) {component : Component}
    {bytes : Bytes} {isOpen : Bool} (held : drafts component = some ⟨bytes, isOpen, false⟩) :
    stage.store.disk.node? (folder ++ [setting.descriptor.nameOf false component]) ≠
      some .folder := by
  obtain ⟨id, node⟩ := stands.placed component _ held
  rw [node]
  exact nofun

theorem rename (stands : Stands setting folder base drafts stage) {component : Component}
    {bytes : Bytes} {isOpen : Bool} (held : drafts component = some ⟨bytes, isOpen, false⟩)
    (done : stage.rename setting component = (later, none)) :
    Stands setting folder base
      (Function.update drafts component (some ⟨bytes, isOpen, true⟩)) later := by
  obtain ⟨file, moved, -, -⟩ := moves_of_rename stands.stays (stands.plain held) done
  exact stands.update (fun path isOpen => moved.isOpen isOpen)
    (stands.text component (by rw [held]; exact nofun))
    (fun isFinal other differs => moved.others _ (Descriptor.not_isPrefix_of_ne (.inr differs.symm))
      (Descriptor.not_isPrefix_of_ne (.inr differs.symm))) moved.held

/-- Writing to a file changes no name. -/
theorem of_nodes (stands : Stands setting folder base drafts stage) {component : Component}
    {draft next : Draft} (held : drafts component = some draft) (same : next.isFinal = draft.isFinal)
    (nodes : ∀ path, later.store.disk.node? path = stage.store.disk.node? path) :
    Stands setting folder base (Function.update drafts component (some next)) later := by
  obtain ⟨id, node⟩ := stands.placed component draft held
  exact stands.update (fun path isOpen front below => (nodes front).trans (isOpen front below))
    (stands.text component (by rw [held]; exact nofun)) (fun _ _ _ => nodes _)
    ((nodes _).trans (same ▸ node))

theorem nodes_write (stage : Stage) (component : Component) (bytes : Bytes) (path : Path) :
    (stage.write setting component bytes).1.store.disk.node? path =
      stage.store.disk.node? path := by
  unfold Stage.write
  split
  · rfl
  · dsimp only
    by_cases keeps : (setting.medium.sink component).keeps = true
    · rw [if_pos keeps]
      exact (carries_absorb stage.store _ _).writes.nodes path
    · rw [if_neg keeps]
      rfl

theorem nodes_close (stage : Stage) (component : Component) (path : Path) :
    (stage.close setting component).1.store.disk.node? path = stage.store.disk.node? path := by
  unfold Stage.close
  split
  · rfl
  · rename_i output _
    obtain ⟨next, carries⟩ := carries_drain stage.store output
    exact carries.writes.nodes path

theorem perform (stands : Stands setting folder base drafts stage) {step : Step} {next : Drafts}
    (allowed : drafts.step step = some next) (done : stage.perform setting step = (later, none)) :
    Stands setting folder base next later := by
  cases step with
  | notify notice =>
      cases allowed
      obtain ⟨rfl, -⟩ := Prod.mk.inj done
      exact ⟨stands.resides, stands.opens, stands.text, stands.placed⟩
  | create component =>
      rw [Drafts.step] at allowed
      split at allowed
      · cases allowed
        exact stands.create done
      · cases allowed
  | write component bytes =>
      rw [Drafts.step] at allowed
      split at allowed
      · rename_i held
        cases allowed
        have later' : (stage.write setting component bytes).1 = later := congrArg Prod.fst done
        exact stands.of_nodes held rfl fun path => later' ▸ nodes_write stage component bytes path
      · cases allowed
  | close component =>
      rw [Drafts.step] at allowed
      split at allowed
      · rename_i held
        cases allowed
        have later' : (stage.close setting component).1 = later := congrArg Prod.fst done
        exact stands.of_nodes held rfl fun path => later' ▸ nodes_close stage component path
      · cases allowed
  | rename component =>
      rw [Drafts.step] at allowed
      split at allowed
      · rename_i held
        cases allowed
        exact stands.rename held done
      · cases allowed

/-- Steps that all succeed change the names as they change the drafts. -/
theorem performAll (stands : Stands setting folder base drafts stage) {steps : List Step}
    {next : Drafts} (allowed : drafts.steps steps = some next)
    (done : stage.performAll setting steps = (later, none)) :
    Stands setting folder base next later := by
  induction steps generalizing stage drafts with
  | nil =>
      cases allowed
      cases done
      exact stands
  | cons step rest ih =>
      obtain ⟨middle, first, further⟩ := Option.bind_eq_some_iff.1 allowed
      rw [Stage.performAll] at done
      split at done
      · cases done
      · rename_i performed
        exact ih (stands.perform first performed) further done

end Stage.Stands

end SortedTable

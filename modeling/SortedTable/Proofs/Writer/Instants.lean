import SortedTable.Proofs.Disk.Instants
import SortedTable.Proofs.Writer.Atomic

namespace SortedTable

namespace Descriptor

/-- The list of contents does not have its final name. -/
def IsUnlisted (descriptor : Descriptor) (folder : Path) (disk : Disk) : Prop :=
  disk.node? (folder ++ [descriptor.nameOf true .contents]) = none

/-- If the list of contents has its final name, so have all of these components. -/
def IsWhole (descriptor : Descriptor) (folder : Path) (components : List Component) (disk : Disk) :
    Prop :=
  descriptor.IsUnlisted folder disk ∨ descriptor.HasAll disk folder components

theorem IsUnlisted.remove {descriptor : Descriptor} {folder : Path} {disk : Disk}
    (free : descriptor.IsUnlisted folder disk) (path : Path) :
    descriptor.IsUnlisted folder (disk.apply (.remove path)) :=
  Disk.node?_remove_eq_none free

/-- A table is not whole without its data while its list of contents has its final name. -/
theorem HasAll.not_isWhole_remove {descriptor : Descriptor} {folder : Path} {disk : Disk}
    {components : List Component} (all : descriptor.HasAll disk folder components)
    (data : .data ∈ components) (contents : .contents ∈ components) :
    ¬descriptor.IsWhole folder components
      (disk.apply (.remove (folder ++ [descriptor.nameOf true .data]))) := by
  rintro (free | all')
  · obtain ⟨bytes, held⟩ := all.present .contents contents
    have other : folder ++ [descriptor.nameOf true .contents] ≠
        folder ++ [descriptor.nameOf true .data] := fun same =>
      absurd (eq_of_concat_nameOf same).2 (by decide)
    rw [IsUnlisted, Disk.node?_remove_of_ne other] at free
    rw [Disk.file?, free] at held
    cases held
  · obtain ⟨bytes, held⟩ := all'.present .data data
    rw [Disk.file?, Disk.node?_remove_self
      (Path.isProper_concat folder (descriptor.isName_nameOf true .data).proper)] at held
    cases held

end Descriptor

/-- The step does not give the list of contents its final name. -/
def Step.IsQuiet (step : Step) : Prop := step ≠ .rename .contents

theorem Step.IsFilling.isQuiet {step : Step} (filling : step.IsFilling) : step.IsQuiet := by
  rintro rfl
  exact filling

namespace Stage

variable {setting : Setting} {folder : Path} {base : Disk} {stage : Stage}
  {descriptor : Descriptor} {store : Store} {holds : Disk → Prop}

section Files

theorem passes_emit (output : Output)
    (stable : ∀ disk offset bytes, holds disk → holds (disk.apply (.write output.file offset bytes)))
    (here : holds store.disk) (chunks : List Bytes) :
    store.Passes holds (emit store output chunks).1 := by
  induction chunks generalizing store output with
  | nil => exact .refl here
  | cons chunk rest ih =>
      have next := stable store.disk output.offset chunk here
      have one : store.Passes holds
          (store.change (.write output.file output.offset chunk)) :=
        .changeAll (.cons here (.nil next))
      rw [emit_cons]
      exact one.trans (ih _ stable next)

theorem passes_absorb (output : Output)
    (stable : ∀ disk offset bytes, holds disk → holds (disk.apply (.write output.file offset bytes)))
    (here : holds store.disk) (parts : List Bytes) :
    store.Passes holds (absorb store output parts).1 := by
  induction parts generalizing store output with
  | nil => exact .refl here
  | cons part rest ih =>
      have first := passes_emit { output with buffer := (output.buffer.push part).2 } stable here
        (output.buffer.push part).1
      have file := (carries_emit store { output with buffer := (output.buffer.push part).2 }
        (output.buffer.push part).1).file
      have stable' : ∀ disk offset bytes, holds disk → holds (disk.apply (.write
          (emit store { output with buffer := (output.buffer.push part).2 }
            (output.buffer.push part).1).2.file offset bytes)) := by
        rw [file]
        exact stable
      exact first.trans (ih _ stable' first.last)

theorem passes_drain (output : Output)
    (stable : ∀ disk offset bytes, holds disk → holds (disk.apply (.write output.file offset bytes)))
    (here : holds store.disk) : store.Passes holds (drain store output) :=
  passes_emit output stable here _

end Files

/-- Creating a file is one change at most. -/
theorem passes_create (component : Component) (here : holds stage.store.disk)
    (there : holds (stage.create setting component).1.store.disk) :
    stage.store.Passes holds (stage.create setting component).1.store := by
  unfold create at there ⊢
  split
  · exact .refl here
  · split
    · exact .refl here
    · rename_i sound _ _ _ created
      rw [sound] at there
      dsimp only at there
      rw [created] at there
      dsimp only at there
      rw [Store.disk_changeAll] at there
      exact .changeAll (.of_length_le_one (Disk.length_create_le created) here there)

/-- Giving a file its final name is one change at most. -/
theorem passes_rename (component : Component) (here : holds stage.store.disk)
    (there : holds (stage.rename setting component).1.store.disk) :
    stage.store.Passes holds (stage.rename setting component).1.store := by
  unfold rename at there ⊢
  split
  · exact .refl here
  · split
    · rename_i sound _ _ performed
      rw [sound] at there
      dsimp only at there
      rw [performed] at there
      obtain ⟨changes, renamed, rfl⟩ := Except.map_eq_ok_iff.1 performed
      dsimp only at there
      rw [Store.disk_changeAll] at there
      exact .changeAll (.of_length_le_one (Disk.length_rename_le renamed) here there)
    · exact .refl here

theorem isUnlisted_create (isolated : stage.Isolated setting.descriptor folder base)
    (free : setting.descriptor.IsUnlisted folder stage.store.disk) (component : Component) :
    setting.descriptor.IsUnlisted folder (stage.create setting component).1.store.disk := by
  rcases outcome : stage.create setting component with ⟨later, - | error⟩
  · obtain ⟨id, -, made, -, -⟩ := creates_of_create isolated.stays outcome
    have other : folder ++ [setting.descriptor.nameOf true .contents] ≠
        folder ++ [setting.descriptor.nameOf false component] := fun same =>
      absurd (Descriptor.eq_of_concat_nameOf same).1 (by decide)
    exact (made.others _ other).trans free
  · rw [eq_of_create_fails outcome]
    exact free

theorem isUnlisted_rename (isolated : stage.Isolated setting.descriptor folder base)
    (free : setting.descriptor.IsUnlisted folder stage.store.disk) {component : Component}
    (differs : component ≠ .contents) :
    setting.descriptor.IsUnlisted folder (stage.rename setting component).1.store.disk := by
  rcases outcome : stage.rename setting component with ⟨later, - | error⟩
  · obtain ⟨id, moved, -, -⟩ := moves_of_rename isolated.stays (isolated.plain false component) outcome
    exact (moved.others _ (Descriptor.not_isPrefix_of_ne (.inr differs))
      (Descriptor.not_isPrefix_of_ne (.inr differs))).trans free
  · rw [eq_of_rename_fails outcome]
    exact free

theorem passes_perform (isolated : stage.Isolated setting.descriptor folder base)
    (free : setting.descriptor.IsUnlisted folder stage.store.disk) {step : Step}
    (quiet : step.IsQuiet) :
    stage.store.Passes (setting.descriptor.IsUnlisted folder)
      (stage.perform setting step).1.store := by
  cases step with
  | notify notice => exact .deliver free setting.observers notice
  | create component =>
      exact passes_create component free (isUnlisted_create isolated free component)
  | write component bytes =>
      change stage.store.Passes _ (stage.write setting component bytes).1.store
      unfold write
      split
      · exact .refl free
      · dsimp only
        split
        · exact passes_absorb _ (fun _ _ _ free => free) free _
        · exact .refl free
  | close component =>
      change stage.store.Passes _ (stage.close setting component).1.store
      unfold close
      split
      · exact .refl free
      · exact passes_drain _ (fun _ _ _ free => free) free
  | rename component =>
      have differs : component ≠ .contents := by
        rintro rfl
        exact quiet rfl
      exact passes_rename component free (isUnlisted_rename isolated free differs)

/-- Steps that do not list the contents leave them unlisted at every instant. -/
theorem passes_performAll (isolated : stage.Isolated setting.descriptor folder base)
    (free : setting.descriptor.IsUnlisted folder stage.store.disk) {steps : List Step}
    (quiet : ∀ step ∈ steps, step.IsQuiet) :
    stage.store.Passes (setting.descriptor.IsUnlisted folder)
      (stage.performAll setting steps).1.store := by
  induction steps generalizing stage with
  | nil => exact .refl free
  | cons step rest ih =>
      have first := passes_perform isolated free (quiet step List.mem_cons_self)
      have next := isolated.perform step
      rw [performAll]
      split
      · rename_i failed
        rwa [failed] at first
      · rename_i done
        rw [done] at first next
        exact first.trans (ih next first.last fun other member =>
          quiet other (List.mem_cons_of_mem _ member))

theorem passes_discard (stable : ∀ disk path, holds disk → holds (disk.apply (.remove path)))
    (here : holds store.disk) (text : String) : store.Passes holds (discard store text) := by
  unfold discard
  split
  · rename_i performed
    obtain ⟨changes, removed, rfl⟩ := Except.map_eq_ok_iff.1 performed
    obtain ⟨path, rfl⟩ := Disk.exists_of_remove removed
    exact .changeAll (.cons here (.nil (stable _ _ here)))
  · exact .refl here

/-- Removing a file is one change at most. -/
theorem passes_discard_of_last {text : String} (here : holds store.disk)
    (there : holds (discard store text).disk) : store.Passes holds (discard store text) := by
  unfold discard at there ⊢
  split
  · rename_i performed
    rw [performed] at there
    obtain ⟨changes, removed, rfl⟩ := Except.map_eq_ok_iff.1 performed
    obtain ⟨path, rfl⟩ := Disk.exists_of_remove removed
    exact .changeAll (.cons here (.nil there))
  · exact .refl here

theorem passes_discards (stable : ∀ disk path, holds disk → holds (disk.apply (.remove path)))
    (here : holds store.disk) (components : List Component) :
    store.Passes holds (components.foldl (fun store component =>
      discard (discard store (descriptor.temporaryPath component))
        (descriptor.finalPath component)) store) := by
  induction components generalizing store with
  | nil => exact .refl here
  | cons component rest ih =>
      have first := passes_discard stable here (descriptor.temporaryPath component)
      have second := passes_discard stable first.last (descriptor.finalPath component)
      exact (first.trans second).trans (ih second.last)

/-- Contents that are not listed are not listed while a writer gives up. -/
theorem passes_clear (setting : Setting) (stage : Stage)
    (free : setting.descriptor.IsUnlisted folder stage.store.disk) :
    stage.store.Passes (setting.descriptor.IsUnlisted folder) (stage.clear setting) := by
  have drained (outputs : List Output) (store : Store)
      (free : setting.descriptor.IsUnlisted folder store.disk) :
      store.Passes (setting.descriptor.IsUnlisted folder) (outputs.foldl drain store) := by
    induction outputs generalizing store with
    | nil => exact .refl free
    | cons output rest ih =>
        have first := passes_drain output (fun _ _ _ free => free) free
        exact first.trans (ih _ first.last)
  have first := drained stage.outputs stage.store free
  exact first.trans (passes_discards (fun _ path free => free.remove path) first.last stage.created)

end Stage

namespace Script

/-- No step of the script gives the list of contents its final name. -/
def IsQuiet (script : Script) : Prop := ∀ step ∈ script.steps, step.IsQuiet

/-- The script gives the list of contents its final name as its last step, if it has no fault. -/
def ListsLast (script : Script) : Prop :=
  script.fault ≠ none ∧ script.IsQuiet ∨
    script.fault = none ∧ ∃ front, script.steps = front ++ [.rename .contents] ∧
      ∀ step ∈ front, step.IsQuiet

/-- What holds of all steps of two scripts holds of all steps of the script put together. -/
theorem forall_steps_append {holds : Step → Prop} {first second : Script}
    (all : ∀ step ∈ first.steps, holds step) (all' : ∀ step ∈ second.steps, holds step) :
    ∀ step ∈ (first ++ second).steps, holds step := by
  cases ended : first.fault with
  | some error =>
      rw [append_of_some second ended]
      exact all
  | none =>
      intro step member
      rw [steps_append_of_none second ended] at member
      exact (List.mem_append.1 member).elim (all step) (all' step)

theorem IsQuiet.append {first second : Script} (quiet : first.IsQuiet) (quiet' : second.IsQuiet) :
    (first ++ second).IsQuiet := forall_steps_append quiet quiet'

theorem ListsLast.append {first second : Script} (quiet : first.IsQuiet) (lists : second.ListsLast) :
    (first ++ second).ListsLast := by
  cases ended : first.fault with
  | some error =>
      rw [append_of_some second ended]
      exact .inl ⟨by rw [ended]; exact nofun, quiet⟩
  | none =>
      have fault : (first ++ second).fault = second.fault := by
        rw [fault_append, ended]
        rfl
      rcases lists with ⟨failed, quiet'⟩ | ⟨whole, front, steps, quiet'⟩
      · exact .inl ⟨fault ▸ failed, quiet.append quiet'⟩
      · refine .inr ⟨fault.trans whole, first.steps ++ front, ?_, fun step member =>
          (List.mem_append.1 member).elim (quiet step) (quiet' step)⟩
        rw [steps_append_of_none second ended, steps, List.append_assoc]

theorem isQuiet_single (step : Step) (quiet : step.IsQuiet) : (ofSteps [step]).IsQuiet :=
  fun _ member => List.mem_singleton.1 member ▸ quiet

theorem exists_write_of_mem_ofFields {component : Component}
    {fields : Except TableError (List Bytes)} {step : Step}
    (member : step ∈ (ofFields component fields).steps) : ∃ bytes, step = .write component bytes := by
  cases fields with
  | error error => cases member
  | ok fields =>
      obtain ⟨bytes, -, rfl⟩ := List.mem_map.1 member
      exact ⟨bytes, rfl⟩

theorem isQuiet_ofFields (component : Component) (fields : Except TableError (List Bytes)) :
    (ofFields component fields).IsQuiet := by
  intro step member
  obtain ⟨bytes, rfl⟩ := exists_write_of_mem_ofFields member
  exact nofun

theorem isQuiet_component (component : Component) (fields : Except TableError (List Bytes)) :
    (componentScript component fields).IsQuiet :=
  (isQuiet_single (.create component) nofun).append
    ((isQuiet_ofFields component fields).append (isQuiet_single (.close component) nofun))

end Script

/-- Every step of writing a partition writes to the data or the index or tells the observers. -/
theorem Partition.isFilling_script (partition : Partition) (blockSize : UInt64)
    (position : Position) :
    ∀ step ∈ (partition.script blockSize position).steps, step.IsFilling := by
  have single (step : Step) (filling : step.IsFilling) :
      ∀ other ∈ (Script.ofSteps [step]).steps, other.IsFilling :=
    fun _ member => List.mem_singleton.1 member ▸ filling
  have told (notice : Notice) := single (.notify notice) trivial
  have fields (component : Component) (filled : component = .data ∨ component = .index)
      (fields : Except TableError (List Bytes)) :
      ∀ step ∈ (Script.ofFields component fields).steps, step.IsFilling := by
    intro step member
    obtain ⟨bytes, rfl⟩ := Script.exists_write_of_mem_ofFields member
    exact filled
  have row : ∀ step ∈ (partition.writtenStaticRow.elim (.ofSteps []) Row.staticScript).steps,
      step.IsFilling := by
    cases partition.writtenStaticRow with
    | none => exact nofun
    | some row => exact Script.forall_steps_append (fields .data (.inl rfl) _) (told _)
  have elements (encoded : List EncodedElement) :
      ∀ step ∈ encoded.flatMap EncodedElement.steps, step.IsFilling := by
    intro step member
    obtain ⟨one, -, inside⟩ := List.mem_flatMap.1 member
    rcases List.mem_append.1 inside with inside | inside
    · obtain ⟨bytes, -, rfl⟩ := List.mem_map.1 inside
      exact .inl rfl
    · rw [List.mem_singleton.1 inside]
      exact trivial
  have closing (blocks : Except Overflow (List Block)) :
      ∀ step ∈ (closingScript partition.key position.data blocks).steps, step.IsFilling := by
    cases blocks with
    | error cause => exact nofun
    | ok blocks =>
        exact Script.forall_steps_append (single (.write .data endMark) (.inl rfl))
          (fields .index (.inr rfl) _)
  exact Script.forall_steps_append
    (Script.forall_steps_append (told _)
      (Script.forall_steps_append (fields .data (.inl rfl) _) row))
    (Script.forall_steps_append (elements _) (closing _))

/-- Writing a partition does not list the contents. -/
theorem Partition.isQuiet_script (partition : Partition) (blockSize : UInt64) (position : Position) :
    (partition.script blockSize position).IsQuiet := fun step member =>
  (partition.isFilling_script blockSize position step member).isQuiet

/-- A commit lists the contents last. -/
theorem listsLast_commitScript (version : Version) (filter : Filter) (statistics : Statistics) :
    (commitScript version filter statistics).ListsLast := by
  have closed : (Script.ofSteps [.close .data, .close .index]).IsQuiet := by
    simp [Script.IsQuiet, Script.ofSteps, Step.IsQuiet]
  have filtered : (if filter.isInformative then
      componentScript .filter (.ok (filter.storedFields version.filterFormat))
      else .ofSteps []).IsQuiet := by
    split
    · exact Script.isQuiet_component _ _
    · exact nofun
  have renamed : (Script.ofSteps ((tableComponents filter).map .rename)).IsQuiet := by
    intro step member
    obtain ⟨component, among, rfl⟩ := List.mem_map.1 member
    rintro ⟨⟩
    unfold tableComponents at among
    split at among <;> simp at among
  have last : (Script.ofSteps [.rename .contents]).ListsLast := .inr ⟨rfl, [], rfl, nofun⟩
  exact .append closed (.append filtered (.append (Script.isQuiet_component _ _)
    (.append renamed (.append (Script.isQuiet_component _ _) last))))

namespace Stage

variable {setting : Setting} {folder : Path} {base : Disk} {stage later : Stage}

theorem performAll_append (setting : Setting) (stage : Stage) (first second : List Step) :
    stage.performAll setting (first ++ second) =
      match stage.performAll setting first with
      | (stage, some error) => (stage, some error)
      | (stage, none) => stage.performAll setting second := by
  induction first generalizing stage with
  | nil => rfl
  | cons step rest ih =>
      rw [List.cons_append, performAll, performAll]
      split
      · rfl
      · exact ih _

theorem fst_run (setting : Setting) (stage : Stage) (script : Script) :
    (stage.run setting script).1 = (stage.performAll setting script.steps).1 := by
  rw [run]
  split <;> rename_i outcome <;> rw [outcome]

theorem passes_run (isolated : stage.Isolated setting.descriptor folder base)
    (free : setting.descriptor.IsUnlisted folder stage.store.disk) {script : Script}
    (quiet : script.IsQuiet) :
    stage.store.Passes (setting.descriptor.IsUnlisted folder) (stage.run setting script).1.store := by
  rw [fst_run]
  exact passes_performAll isolated free quiet

/-- A script that fails leaves the contents unlisted at every instant. -/
theorem passes_run_of_fails (isolated : stage.Isolated setting.descriptor folder base)
    (free : setting.descriptor.IsUnlisted folder stage.store.disk) {script : Script}
    (lists : script.ListsLast) {error : TableError}
    (ran : stage.run setting script = (later, some error)) :
    stage.store.Passes (setting.descriptor.IsUnlisted folder) later.store := by
  rcases lists with ⟨-, quiet⟩ | ⟨whole, front, steps, quiet⟩
  · have passes := passes_run isolated free quiet
    rwa [ran] at passes
  · have passes := passes_performAll isolated free quiet
    rw [run, steps, performAll_append] at ran
    rcases outcome : stage.performAll setting front with ⟨middle, - | error'⟩
    · rw [outcome] at ran passes
      dsimp only at ran passes
      rw [performAll] at ran
      rcases last : middle.perform setting (.rename .contents) with ⟨final, - | cause⟩
      · rw [last] at ran
        dsimp only [performAll] at ran
        rw [whole] at ran
        cases ran
      · rw [last] at ran
        cases ran
        rw [eq_of_rename_fails last]
        exact passes
    · rw [outcome] at ran passes
      cases ran
      exact passes

/-- A script that lists the contents does so by its last change. -/
theorem passes_run_of_lists (isolated : stage.Isolated setting.descriptor folder base)
    (free : setting.descriptor.IsUnlisted folder stage.store.disk) {script : Script}
    (lists : script.ListsLast) (ran : stage.run setting script = (later, none))
    {components : List Component}
    (all : setting.descriptor.HasAll later.store.disk folder components) :
    stage.store.Passes (setting.descriptor.IsWhole folder components) later.store := by
  obtain ⟨performed, unbroken⟩ := run_eq_none_iff.1 ran
  rcases lists with ⟨failed, -⟩ | ⟨-, front, steps, quiet⟩
  · exact absurd unbroken failed
  · have passes := passes_performAll isolated free quiet
    rw [steps, performAll_append] at performed
    rcases outcome : stage.performAll setting front with ⟨middle, - | error⟩
    · rw [outcome] at performed passes
      dsimp only at performed passes
      rw [performAll] at performed
      rcases last : middle.perform setting (.rename .contents) with ⟨final, - | cause⟩
      · rw [last] at performed
        cases performed
        have renamed : (middle.rename setting .contents).1 = later := congrArg Prod.fst last
        have one : middle.store.Passes (setting.descriptor.IsWhole folder components)
            (middle.rename setting .contents).1.store :=
          passes_rename .contents (.inl passes.last) (renamed ▸ .inr all)
        rw [renamed] at one
        exact (passes.mono fun _ => .inl).trans one
      · rw [last] at performed
        cases performed
    · rw [outcome] at performed
      cases performed

end Stage

namespace Stage

variable {setting : Setting} {stage later : Stage}

theorem created_of_create {component : Component}
    (done : stage.create setting component = (later, none)) :
    later.created = stage.created ++ [component] := by
  unfold create at done
  split at done
  · cases done
  · split at done <;> cases done
    rfl

/-- Components are created one behind the other. -/
theorem created_perform (setting : Setting) (stage : Stage) (step : Step) :
    stage.created <+: (stage.perform setting step).1.created := by
  cases step with
  | notify notice => exact List.prefix_rfl
  | create component =>
      rcases outcome : stage.create setting component with ⟨later, - | error⟩
      · rw [perform, outcome, created_of_create outcome]
        exact List.prefix_append ..
      · have same : (stage.perform setting (.create component)).1.created = stage.created := by
          rw [perform, outcome, eq_of_create_fails outcome]
        exact same ▸ List.prefix_rfl
  | write component bytes =>
      rw [perform, write]
      split <;> exact List.prefix_rfl
  | close component =>
      rw [perform, close]
      split <;> exact List.prefix_rfl
  | rename component =>
      rw [perform, rename]
      split
      · exact List.prefix_rfl
      · split <;> exact List.prefix_rfl

theorem created_performAll (setting : Setting) (stage : Stage) (steps : List Step) :
    stage.created <+: (stage.performAll setting steps).1.created := by
  induction steps generalizing stage with
  | nil => exact List.prefix_rfl
  | cons step rest ih =>
      have first := created_perform setting stage step
      rw [performAll]
      split
      · rename_i failed
        rwa [failed] at first
      · rename_i done
        rw [done] at first
        exact first.trans (ih _)

end Stage

/-- A writer begins with the data and the index. -/
theorem WriterPlan.created_eq_of_opening {plan : WriterPlan} {store : Store} {stage : Stage}
    (ran : (plan.ground store).run plan.setting plan.opening = (stage, none)) :
    stage.created = [.data, .index] := by
  have performed := (Stage.run_eq_none_iff.1 ran).1
  rw [opening, Script.ofSteps, Stage.performAll] at performed
  rcases first : (plan.ground store).perform plan.setting (.create .data) with ⟨next, - | error⟩
  · rw [first] at performed
    dsimp only at performed
    rw [Stage.performAll] at performed
    rcases second : next.perform plan.setting (.create .index) with ⟨last, - | error⟩
    · rw [second] at performed
      cases performed
      change last.created = _
      rw [Stage.created_of_create second, Stage.created_of_create first]
      rfl
    · rw [second] at performed
      cases performed
  · rw [first] at performed
    cases performed

/-- Giving up a table whose files all have their final names removes its data first. -/
theorem Stage.gains_clear {setting : Setting} {folder : Path} {base : Disk} {stage : Stage}
    {filter : Option Bytes} {data index statistics contents : Bytes}
    (shows' : stage.Shows setting folder base
      (.committed data index statistics contents filter))
    (created : [Component.data] <+: stage.created) :
    ∃ cleaning, stage.store.Gains (stage.clear setting)
      (.remove (folder ++ [setting.descriptor.nameOf true .data]) :: cleaning) := by
  have closed : stage.outputs = [] := by
    cases held : stage.outputs with
    | nil => rfl
    | cons output rest =>
        have idle := shows'.idle output.component fun draft drafted =>
          (Drafts.isFinal_of_committed drafted).2
        rw [output?, held, List.find?_cons_of_pos (by simp)] at idle
        cases idle
  obtain ⟨rest, created⟩ := created
  have text := shows'.text .data nofun
  obtain ⟨id, node⟩ := shows'.placed .data _ rfl
  -- The data has no temporary name any more, so the first attempt to remove it changes nothing.
  have temporary : discard stage.store (setting.descriptor.temporaryPath .data) = stage.store := by
    have bare := shows'.bare false .data fun draft drafted => by cases drafted; exact nofun
    have refused := Disk.remove_of_nothing (setting.descriptor.utf8ByteSize_nameOf_le false .data)
      (shows'.stays.place text) bare
    rw [discard, Store.perform, ← Descriptor.pathOf_false, refused]
    rfl
  have final : discard stage.store (setting.descriptor.finalPath .data) =
      stage.store.changeAll [.remove (folder ++ [setting.descriptor.nameOf true .data])] := by
    have removed := Disk.remove_of_file (setting.descriptor.utf8ByteSize_nameOf_le true .data)
      (shows'.stays.place (Descriptor.isText_final text)) node
    rw [discard, Store.perform, ← Descriptor.pathOf_true, removed]
    rfl
  have further : (discard stage.store (setting.descriptor.finalPath .data)).Passes (fun _ => True)
      (rest.foldl (fun store component =>
        discard (discard store (setting.descriptor.temporaryPath component))
          (setting.descriptor.finalPath component))
        (discard stage.store (setting.descriptor.finalPath .data))) :=
    passes_discards (fun _ _ _ => trivial) trivial rest
  obtain ⟨cleaning, gains, -⟩ := further
  refine ⟨cleaning, ?_⟩
  rw [clear, closed, ← created, List.foldl_nil, List.singleton_append, List.foldl_cons]
  rw [temporary]
  rw [final] at gains ⊢
  exact (stage.store.gains_changeAll _).trans gains

end SortedTable

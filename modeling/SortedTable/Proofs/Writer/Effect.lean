import SortedTable.Proofs.Descriptor
import SortedTable.Proofs.Disk.Edit
import SortedTable.Proofs.Writer.Output

namespace SortedTable

namespace Descriptor

/-- The folder of the table is there and has this path. -/
def ResidesIn (descriptor : Descriptor) (disk : Disk) (folder : Path) : Prop :=
  disk.enter [] (Path.steps descriptor.directory) = .ok folder

/-- The table's folder holds nothing under any name of the table. -/
def IsVacant (descriptor : Descriptor) (disk : Disk) : Prop :=
  ∀ folder, descriptor.ResidesIn disk folder →
    ∀ isFinal component, disk.node? (folder ++ [descriptor.nameOf isFinal component]) = none

/-- The path is that of a file of the table in this folder, or lies below one. -/
def Owns (descriptor : Descriptor) (folder path : Path) : Prop :=
  ∃ isFinal component, folder ++ [descriptor.nameOf isFinal component] <+: path

theorem owns_nameOf (descriptor : Descriptor) (folder : Path) (isFinal : Bool)
    (component : Component) :
    descriptor.Owns folder (folder ++ [descriptor.nameOf isFinal component]) :=
  ⟨isFinal, component, List.prefix_rfl⟩

/-- Of the names in the folder the table owns its own. -/
theorem exists_nameOf_of_owns {descriptor : Descriptor} {folder : Path} {name : String}
    (owned : descriptor.Owns folder (folder ++ [name])) :
    ∃ isFinal component, descriptor.nameOf isFinal component = name := by
  obtain ⟨isFinal, component, below⟩ := owned
  refine ⟨isFinal, component, ?_⟩
  by_contra differs
  exact Disk.not_concat_isPrefix_concat differs below

theorem ResidesIn.unique {descriptor : Descriptor} {disk : Disk} {folder other : Path}
    (resides : descriptor.ResidesIn disk folder) (resides' : descriptor.ResidesIn disk other) :
    folder = other :=
  Except.ok.inj (resides.symm.trans resides')

/-- The folder of the table is open, and stays the same if the open folders stay open. -/
theorem ResidesIn.of_isOpen {descriptor : Descriptor} {disk later : Disk} {folder : Path}
    (resides : descriptor.ResidesIn disk folder)
    (kept : ∀ path, disk.IsOpen path → later.IsOpen path) : descriptor.ResidesIn later folder :=
  (Disk.enter_of_isOpen kept disk.isOpen_nil resides).2

theorem place_pathOf_iff {descriptor : Descriptor} {disk : Disk} {isFinal : Bool}
    {component : Component} {spot : Disk.Place} :
    disk.place (descriptor.pathOf isFinal component) = .ok spot ↔
      Path.IsText (descriptor.pathOf isFinal component) ∧
        ∃ folder, descriptor.ResidesIn disk folder ∧
          spot = .entry folder (descriptor.nameOf isFinal component) false :=
  Disk.place_joinText_iff (descriptor.isName_nameOf isFinal component)

theorem ResidesIn.place {descriptor : Descriptor} {disk : Disk} {folder : Path}
    (resides : descriptor.ResidesIn disk folder) {isFinal : Bool} {component : Component}
    (text : Path.IsText (descriptor.pathOf isFinal component)) :
    disk.place (descriptor.pathOf isFinal component) =
      .ok (.entry folder (descriptor.nameOf isFinal component) false) :=
  place_pathOf_iff.2 ⟨text, folder, resides, rfl⟩

theorem not_isPrefix_of_ne {descriptor : Descriptor} {folder : Path} {isFinal isFinal' : Bool}
    {component other : Component} (differs : isFinal ≠ isFinal' ∨ component ≠ other) :
    ¬folder ++ [descriptor.nameOf isFinal component] <+:
      folder ++ [descriptor.nameOf isFinal' other] := by
  apply Disk.not_concat_isPrefix_concat
  intro same
  obtain ⟨-, sameLabel, sameComponent⟩ := nameOf_inj rfl same
  rcases differs with differs | differs
  · exact differs sameLabel
  · exact differs sameComponent

/-- The final path of a component is a text if its temporary one is. -/
theorem isText_final {descriptor : Descriptor} {component : Component}
    (text : Path.IsText (descriptor.pathOf false component)) :
    Path.IsText (descriptor.pathOf true component) := by
  obtain ⟨front, shape, others⟩ :=
    Path.toList_joinText descriptor.directory (descriptor.nameOf false component)
  have final : (descriptor.pathOf true component).toList =
      front ++ (descriptor.fileName component).toList := others _
  have temporary : (descriptor.pathOf false component).toList =
      front ++ (descriptor.temporaryName component).toList := shape
  constructor
  · have whole := text.whole
    rw [temporary] at whole
    rw [final]
    simp only [List.contains_eq_mem, List.mem_append, decide_eq_false_iff_not, not_or] at whole ⊢
    exact ⟨whole.1, fun member => (plain_of_mem_fileName member).2 rfl⟩
  · have short := text.short
    have texts : descriptor.pathOf false component =
        String.ofList front ++ (temporaryMark ++ descriptor.fileName component) := by
      rw [← String.toList_inj, temporary, String.toList_append, String.toList_ofList]
      rfl
    have texts' : descriptor.pathOf true component =
        String.ofList front ++ descriptor.fileName component := by
      rw [← String.toList_inj, final, String.toList_append, String.toList_ofList]
    rw [texts, String.utf8ByteSize_append, String.utf8ByteSize_append] at short
    rw [texts', String.utf8ByteSize_append]
    omega

end Descriptor

namespace Stage

/-- What a step does to the disk and to the files of a writer. -/
inductive Effect (descriptor : Descriptor) (folder : Path) (stage later : Stage) : Prop where
  | still (disk : later.store.disk = stage.store.disk) (created : later.created = stage.created)
      (outputs : later.outputs = stage.outputs)
  | creates (component : Component) (id : Nat)
      (text : Path.IsText (descriptor.pathOf false component))
      (made : stage.store.disk.Creates later.store.disk
        (folder ++ [descriptor.nameOf false component]) id)
      (created : later.created = stage.created ++ [component])
      (outputs : later.outputs = stage.outputs ++ [{ component := component, file := id }])
  | writes (output : Output) (member : output ∈ stage.outputs)
      (wrote : stage.store.disk.Writes later.store.disk output.file)
      (created : later.created = stage.created)
      (outputs : ∀ next ∈ later.outputs, ∃ held ∈ stage.outputs, next.file = held.file)
  | moves (component : Component) (id : Nat)
      (moved : stage.store.disk.Moves later.store.disk
        (folder ++ [descriptor.nameOf false component])
        (folder ++ [descriptor.nameOf true component]) id)
      (created : later.created = stage.created) (outputs : later.outputs = stage.outputs)

theorem mem_of_output? {stage : Stage} {component : Component} {output : Output}
    (found : stage.output? component = some output) :
    output ∈ stage.outputs ∧ output.component = component :=
  ⟨List.mem_of_find?_eq_some found, by simpa using List.find?_some found⟩

variable {setting : Setting} {stage : Stage} {folder : Path}

/-- The folder of a table whose file could be created is there. -/
theorem resides_of_create {component : Component} {later : Stage}
    (done : stage.create setting component = (later, none)) :
    ∃ folder, setting.descriptor.ResidesIn stage.store.disk folder := by
  unfold create at done
  split at done
  · cases done
  · split at done
    · cases done
    · rename_i id changes created
      rw [← Descriptor.pathOf_false] at created
      obtain ⟨spot, led⟩ := Disk.place_of_create created
      obtain ⟨-, folder, resides, -⟩ := Descriptor.place_pathOf_iff.1 led
      exact ⟨folder, resides⟩

/-- A component is created as an empty file under its temporary name. -/
theorem creates_of_create (resides : setting.descriptor.ResidesIn stage.store.disk folder)
    {component : Component} {later : Stage}
    (done : stage.create setting component = (later, none)) :
    ∃ id, Path.IsText (setting.descriptor.pathOf false component) ∧
      stage.store.disk.Creates later.store.disk
        (folder ++ [setting.descriptor.nameOf false component]) id ∧
      later.created = stage.created ++ [component] ∧
      later.outputs = stage.outputs ++ [{ component := component, file := id }] := by
  unfold create at done
  split at done
  · cases done
  · split at done
    · cases done
    · rename_i id changes created
      rw [← Descriptor.pathOf_false] at created
      obtain ⟨spot, led⟩ := Disk.place_of_create created
      obtain ⟨text, -⟩ := Descriptor.place_pathOf_iff.1 led
      cases done
      refine ⟨id, text, ?_, rfl, rfl⟩
      dsimp only
      rw [Store.disk_changeAll]
      exact Disk.creates_of_create (setting.descriptor.isName_nameOf false component).proper
        (resides.place text) created

/-- A component that cannot be created changes nothing. -/
theorem eq_of_create_fails {component : Component} {later : Stage} {error : TableError}
    (failed : stage.create setting component = (later, some error)) : later = stage := by
  unfold create at failed
  split at failed
  · cases failed
    rfl
  · split at failed
    · cases failed
      rfl
    · cases failed

theorem effect_create (resides : setting.descriptor.ResidesIn stage.store.disk folder)
    (component : Component) :
    Effect setting.descriptor folder stage (stage.create setting component).1 := by
  rcases outcome : stage.create setting component with ⟨later, - | error⟩
  · obtain ⟨id, text, made, created, outputs⟩ := creates_of_create resides outcome
    exact .creates component id text made created outputs
  · rw [eq_of_create_fails outcome]
    exact .still rfl rfl rfl

/-- Replacing the open file of a component by one with the same file leaves the files. -/
theorem exists_of_mem_setOutput {stage : Stage} {store : Store} {output next held : Output}
    (member : output ∈ stage.outputs)
    (present : held ∈ (({ stage with store := store } : Stage).setOutput next).outputs)
    (file : next.file = output.file) :
    ∃ before ∈ stage.outputs, held.file = before.file := by
  obtain ⟨before, inside, same⟩ := List.mem_map.1 present
  by_cases own : before.component = next.component
  · rw [if_pos own] at same
    exact ⟨output, member, same ▸ file⟩
  · rw [if_neg own] at same
    exact ⟨before, inside, same ▸ rfl⟩

/-- Writing to a component leaves the stage as it was or changes the bytes of one open file. -/
theorem writes_of_write (setting : Setting) (stage : Stage) (component : Component)
    (bytes : Bytes) :
    (stage.write setting component bytes).1 = stage ∨ ∃ output ∈ stage.outputs,
      stage.store.disk.Writes (stage.write setting component bytes).1.store.disk output.file ∧
      (stage.write setting component bytes).1.created = stage.created ∧
      ∀ next ∈ (stage.write setting component bytes).1.outputs,
        ∃ held ∈ stage.outputs, next.file = held.file := by
  unfold write
  split
  · exact .inl rfl
  · rename_i output found
    obtain ⟨member, -⟩ := mem_of_output? found
    refine .inr ⟨output, member, ?_⟩
    dsimp only
    by_cases keeps : (setting.medium.sink component).keeps = true
    · rw [if_pos keeps]
      have carries := carries_absorb stage.store { output with
        tracker := ((setting.medium.sink component).writeAll output.tracker bytes).tracker }
        ((setting.medium.sink component).writeAll output.tracker bytes).parts
      exact ⟨carries.writes, rfl, fun held present =>
        exists_of_mem_setOutput member present carries.file⟩
    · rw [if_neg keeps]
      exact ⟨.refl _ _, rfl, fun held present => exists_of_mem_setOutput member present rfl⟩

theorem effect_write (component : Component) (bytes : Bytes) :
    Effect setting.descriptor folder stage (stage.write setting component bytes).1 := by
  rcases writes_of_write setting stage component bytes with
    same | ⟨output, member, wrote, created, outputs⟩
  · rw [same]
    exact .still rfl rfl rfl
  · exact .writes output member wrote created outputs

theorem effect_close (component : Component) :
    Effect setting.descriptor folder stage (stage.close setting component).1 := by
  unfold close
  split
  · exact .still rfl rfl rfl
  · rename_i output found
    obtain ⟨next, carries⟩ := carries_drain stage.store output
    obtain ⟨present, -⟩ := mem_of_output? found
    dsimp only
    exact .writes output present carries.writes rfl
      fun held member => ⟨held, (List.mem_filter.1 member).1, rfl⟩

/-- A file gets the final name of its component. -/
theorem moves_of_rename (resides : setting.descriptor.ResidesIn stage.store.disk folder)
    {component : Component} {later : Stage}
    (plain : stage.store.disk.node? (folder ++ [setting.descriptor.nameOf false component]) ≠
      some .folder)
    (done : stage.rename setting component = (later, none)) :
    ∃ id, stage.store.disk.Moves later.store.disk
        (folder ++ [setting.descriptor.nameOf false component])
        (folder ++ [setting.descriptor.nameOf true component]) id ∧
      later.created = stage.created ∧ later.outputs = stage.outputs := by
  unfold rename at done
  split at done
  · cases done
  · split at done
    · rename_i store performed
      rw [← Descriptor.pathOf_false, ← Descriptor.pathOf_true] at performed
      obtain ⟨changes, renamed, rfl⟩ := Except.map_eq_ok_iff.1 performed
      obtain ⟨spot, led⟩ := Disk.place_of_rename renamed
      obtain ⟨text, -⟩ := Descriptor.place_pathOf_iff.1 led
      have differs : setting.descriptor.nameOf false component ≠
          setting.descriptor.nameOf true component := fun same =>
        absurd (Descriptor.nameOf_inj rfl same).2.1 (by decide)
      obtain ⟨id, moved⟩ := Disk.moves_of_rename
        (setting.descriptor.isName_nameOf false component).proper
        (setting.descriptor.isName_nameOf true component).proper differs (resides.place text)
        (resides.place (Descriptor.isText_final text)) plain renamed
      cases done
      refine ⟨id, ?_, rfl, rfl⟩
      dsimp only
      rwa [Store.disk_changeAll]
    · cases done

theorem eq_of_rename_fails {component : Component} {later : Stage} {error : TableError}
    (failed : stage.rename setting component = (later, some error)) : later = stage := by
  unfold rename at failed
  split at failed
  · cases failed
    rfl
  · split at failed
    · cases failed
    · cases failed
      rfl

theorem effect_rename (resides : setting.descriptor.ResidesIn stage.store.disk folder)
    (component : Component)
    (plain : stage.store.disk.node? (folder ++ [setting.descriptor.nameOf false component]) ≠
      some .folder) :
    Effect setting.descriptor folder stage (stage.rename setting component).1 := by
  rcases outcome : stage.rename setting component with ⟨later, - | error⟩
  · obtain ⟨id, moved, created, outputs⟩ := moves_of_rename resides plain outcome
    exact .moves component id moved created outputs
  · rw [eq_of_rename_fails outcome]
    exact .still rfl rfl rfl

/-- A step has one of the effects, whether it succeeds or not. -/
theorem effect_perform (resides : setting.descriptor.ResidesIn stage.store.disk folder) (step : Step)
    (plain : ∀ component, step = .rename component →
      stage.store.disk.node? (folder ++ [setting.descriptor.nameOf false component]) ≠
        some .folder) :
    Effect setting.descriptor folder stage (stage.perform setting step).1 := by
  cases step with
  | notify notice => exact .still rfl rfl rfl
  | create component => exact effect_create resides component
  | write component bytes => exact effect_write component bytes
  | close component => exact effect_close component
  | rename component => exact effect_rename resides component (plain component rfl)

/-- Removing a file of a table, if there is one, takes at most its name away. -/
theorem disk_discard (descriptor : Descriptor) (store : Store) (isFinal : Bool)
    (component : Component) :
    (discard store (descriptor.pathOf isFinal component)).disk = store.disk ∨
      ∃ folder id, descriptor.ResidesIn store.disk folder ∧
        store.disk.node? (folder ++ [descriptor.nameOf isFinal component]) = some (.file id) ∧
        (discard store (descriptor.pathOf isFinal component)).disk =
          store.disk.apply (.remove (folder ++ [descriptor.nameOf isFinal component])) := by
  unfold discard Store.perform
  split
  · rename_i performed
    obtain ⟨changes, removed, rfl⟩ := Except.map_eq_ok_iff.1 performed
    obtain ⟨spot, led, further⟩ := Except.bind_eq_ok_iff.1 removed
    obtain ⟨-, folder, resides, rfl⟩ := Descriptor.place_pathOf_iff.1 led
    obtain ⟨found, looked, further⟩ := Except.bind_eq_ok_iff.1 further
    obtain ⟨-, held⟩ := Disk.lookup_eq_ok_iff.1 looked
    rcases found with - | - | id
    · cases further
    · cases further
    · cases further
      exact .inr ⟨folder, id, resides, held, Store.disk_changeAll ..⟩
  · exact .inl rfl

end Stage

end SortedTable

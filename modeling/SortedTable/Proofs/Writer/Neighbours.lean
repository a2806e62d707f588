import SortedTable.Proofs.Writer.Territory

namespace SortedTable

namespace Descriptor

/-- What others leave to a table: its files keep their places, and its open ones get no others. -/
structure Leaves (descriptor : Descriptor) (folder : Path) (disk later : Disk) : Prop where
  held : ∀ path id, descriptor.Owns folder path → disk.node? path = some (.file id) →
    later.node? path = some (.file id)
  own : ∀ path id, id < disk.contents.size → later.node? path = some (.file id) →
    ∃ before, disk.node? before = some (.file id) ∧
      (descriptor.Owns folder before → descriptor.Owns folder path)
  grown : disk.contents.size ≤ later.contents.size
  opens : ∀ path, disk.IsOpen path → later.IsOpen path

variable {descriptor other : Descriptor} {folder : Path} {disk middle later : Disk}

theorem Leaves.trans (first : descriptor.Leaves folder disk middle)
    (second : descriptor.Leaves folder middle later) : descriptor.Leaves folder disk later where
  held path id owned held := second.held path id owned (first.held path id owned held)
  own path id inside held := by
    obtain ⟨between, held', owned'⟩ :=
      second.own path id (Nat.lt_of_lt_of_le inside first.grown) held
    obtain ⟨before, held'', owned''⟩ := first.own between id inside held'
    exact ⟨before, held'', fun owned => owned' (owned'' owned)⟩
  grown := Nat.le_trans first.grown second.grown
  opens path isOpen := second.opens path (first.opens path isOpen)

theorem leaves_of_addsFolders (descriptor : Descriptor) (folder : Path)
    (adds : disk.AddsFolders later) : descriptor.Leaves folder disk later where
  held _ _ _ held := adds.node?_eq_file_iff.2 held
  own path _ _ held := ⟨path, adds.node?_eq_file_iff.1 held, id⟩
  grown := Nat.le_of_eq (congrArg Array.size adds.contents.symm)
  opens _ := adds.isOpen

/-- Changes of one table are none of another table in the folder. -/
theorem Tends.leaves (tends : other.Tends folder disk later)
    (directory : other.directory = descriptor.directory) (different : other ≠ descriptor) :
    descriptor.Leaves folder disk later where
  held path id owned held := by
    rw [tends.nodes path fun owned' => different (owned'.unique directory owned)]
    exact held
  own path id inside held := by
    by_cases owned : other.Owns folder path
    · rcases tends.origin path id owned held with recent | ⟨before, owned', held'⟩
      · exact absurd inside (Nat.not_lt.2 recent)
      · exact ⟨before, held', fun own => absurd (owned'.unique directory own) different⟩
    · exact ⟨path, (tends.nodes path owned).symm.trans held, fun own => own⟩
  grown := tends.grown
  opens := tends.opens

/-- A call on the writer of a table adds folders, and then changes the table alone. -/
inductive Acts (descriptor : Descriptor) (store later : Store) : Prop
  | adds (adds : store.Passes (·.AddsFolders later.disk) later)
  | tends (site : Store) (folder : Path) (adds : store.Passes (·.AddsFolders site.disk) site)
      (resides : descriptor.ResidesIn site.disk folder)
      (tends : site.Passes (descriptor.Tends folder site.disk) later)

/-- What stands at a path outside the table has the same bytes at every instant of the call. -/
theorem Acts.passes {store later : Store} (acts : descriptor.Acts store later) :
    store.Passes (fun disk => ∀ path,
      (∀ folder, descriptor.ResidesIn later.disk folder → ¬descriptor.Owns folder path) →
      disk.file? path = store.disk.file? path) later := by
  cases acts with
  | adds adds =>
      exact adds.mono fun disk adds' path _ =>
        (adds'.file? path).symm.trans (adds.first.file? path)
  | tends site folder adds resides tends =>
      refine (adds.mono fun disk adds' path _ =>
        (adds'.file? path).symm.trans (adds.first.file? path)).trans
          (tends.mono fun disk tends' path outside => ?_)
      exact (tends'.file? (outside folder (resides.of_isOpen tends.last.opens))).trans
        (adds.first.file? path)

theorem Acts.leaves {store later : Store} (acts : other.Acts store later)
    (directory : other.directory = descriptor.directory) (different : other ≠ descriptor)
    (resides : descriptor.ResidesIn store.disk folder) :
    descriptor.Leaves folder store.disk later.disk := by
  cases acts with
  | adds adds => exact leaves_of_addsFolders descriptor folder adds.first
  | tends site folder' adds resides' tends =>
      have leaves := leaves_of_addsFolders descriptor folder adds.first
      have there : other.ResidesIn site.disk folder := by
        rw [ResidesIn, directory]
        exact resides.of_isOpen leaves.opens
      obtain rfl := there.unique resides'
      exact leaves.trans (tends.last.leaves directory different)

end Descriptor

/-- A commit, however far it gets, gives final names only to files that were made before. -/
theorem Drafts.exists_steps_commit (version : Version) (filter : Filter) (statistics : Statistics)
    (data index : Bytes) :
    ∃ next, (filling data index).steps (commitScript version filter statistics).steps =
      some next := by
  cases encoded : statistics.fields with
  | ok fields =>
      obtain ⟨_, -, allowed⟩ := steps_commit (fault_commitScript version filter encoded) data index
      exact ⟨_, allowed⟩
  | error error =>
      -- The statistics are created and stay empty, and nothing gets a final name.
      unfold commitScript
      rw [encoded]
      exact ⟨_, steps_append_of_none (steps_closing data index) rfl
        (steps_append_of_none (steps_filterScript version filter data index)
          (fault_filterScript version filter) rfl)⟩

theorem Progress.exists_steps_ending (progress : Progress) (version : Version) (data index : Bytes) :
    ∃ next, (Drafts.filling data index).steps (progress.ending version).steps = some next := by
  unfold ending
  split
  · exact ⟨_, rfl⟩
  · exact Drafts.exists_steps_commit version progress.filter progress.statistics data index

namespace Writer

/-- A writer at work on its table, or one that has failed. -/
structure IsAtWork (descriptor : Descriptor) (folder : Path) (store : Store) (writer : Writer) :
    Prop where
  table : writer.setting.descriptor = descriptor
  resides : descriptor.ResidesIn store.disk folder
  keeps : (writer.stage store).KeepsTo descriptor folder
  stands : writer.progress ≠ none → ∃ data index,
    (writer.stage store).Stands writer.setting folder store.disk (.filling data index)

/-- Others leave a writer at work. -/
theorem IsAtWork.beside {descriptor : Descriptor} {folder : Path} {store later : Store}
    {writer : Writer} (atWork : writer.IsAtWork descriptor folder store)
    (leaves : descriptor.Leaves folder store.disk later.disk) (single : later.disk.IsSingle) :
    writer.IsAtWork descriptor folder later where
  table := atWork.table
  resides := atWork.resides.of_isOpen leaves.opens
  keeps :=
    { single := single
      inside := fun output member =>
        Nat.lt_of_lt_of_le (atWork.keeps.inside output member) leaves.grown
      own := fun output member path held => by
        obtain ⟨before, held', owned⟩ :=
          leaves.own path output.file (atWork.keeps.inside output member) held
        exact owned (atWork.keeps.own output member before held') }
  stands running := by
    obtain ⟨data, index, stands⟩ := atWork.stands running
    refine ⟨data, index, stands.resides.of_isOpen leaves.opens, fun _ isOpen => isOpen, stands.text,
      fun component draft given => ?_⟩
    obtain ⟨id, held⟩ := stands.placed component draft given
    rw [atWork.table] at held ⊢
    exact ⟨id, leaves.held _ id (descriptor.owns_nameOf folder draft.isFinal component) held⟩

/-- What a call leaves: a disk that differs in the table alone, and perhaps a writer at work. -/
structure Proceeds (descriptor : Descriptor) (store later : Store) (next : Option Writer) : Prop where
  acts : descriptor.Acts store later
  single : later.disk.IsSingle
  atWork : ∀ writer, next = some writer → ∃ folder, writer.IsAtWork descriptor folder later

section Calls

variable {store later : Store} {descriptor : Descriptor} {folder : Path} {writer : Writer}

/-- No writer is left. -/
theorem Proceeds.alone (acts : descriptor.Acts store later) (single : later.disk.IsSingle) :
    Proceeds descriptor store later none :=
  ⟨acts, single, fun _ same => by cases same⟩

namespace IsAtWork

/-- A writer at work changes its table alone; none or a failed one is left. -/
theorem ends (atWork : writer.IsAtWork descriptor folder store)
    (tends : store.Passes (descriptor.Tends folder store.disk) later) (single : later.disk.IsSingle)
    {next : Option Writer} (given : next = none ∨ next = some writer.failed) :
    Proceeds descriptor store later next where
  acts := .tends store folder (.refl (.refl _)) atWork.resides tends
  single := single
  atWork left same := by
    rcases given with rfl | rfl
    · cases same
    · cases same
      exact ⟨folder, atWork.table, atWork.resides.of_isOpen tends.last.opens, ⟨single, nofun, nofun⟩,
        fun running => absurd rfl running⟩

/-- A writer at work did nothing. -/
theorem idles (atWork : writer.IsAtWork descriptor folder store) :
    Proceeds descriptor store store (some writer) where
  acts := .adds (.refl (.refl _))
  single := atWork.keeps.single
  atWork _ same := ⟨folder, Option.some.inj same ▸ atWork⟩

/-- A writer that gives up, after a script or without one, removes files of its own table. -/
theorem clears (atWork : writer.IsAtWork descriptor folder store) {stage : Stage}
    (continues : Stage.Continues descriptor folder (writer.stage store) stage)
    {next : Option Writer} (given : next = none ∨ next = some writer.failed) :
    Proceeds descriptor store (stage.clear writer.setting) next := by
  obtain rfl := atWork.table
  obtain ⟨passes, single⟩ := continues.clear atWork.resides
  exact atWork.ends passes single given

theorem append (atWork : writer.IsAtWork descriptor folder store) (partition : Partition) :
    Proceeds descriptor store (writer.append partition store).2.2
      (some (writer.append partition store).2.1) := by
  have possible := writer.appends partition store
  generalize writer.append partition store = outcome at possible
  have scripted (progress : Progress) (held : writer.progress = some progress) :=
    atWork.stands (by rw [held]; exact nofun)
  obtain rfl := atWork.table
  cases possible with
  | aborted ended => exact atWork.idles
  | refused progress error held refusal => exact atWork.clears atWork.keeps.refl (.inr rfl)
  | skipped progress held allowed empty =>
      have skipped : IsAtWork writer.setting.descriptor folder store
          { writer with progress := some { progress with lastKey := some partition.key } } :=
        ⟨rfl, atWork.resides, atWork.keeps, fun _ => scripted progress held⟩
      exact skipped.idles
  | written progress stage held allowed full ran =>
      obtain ⟨data, index, stands⟩ := scripted progress held
      have filled := Drafts.steps_filling
        (partition.isFilling_script writer.blockSize writer.nextPosition) data index
      have continues := atWork.keeps.run stands filled
      have stood := stands.performAll filled (Stage.run_eq_none_iff.1 ran).1
      rw [ran] at continues
      refine ⟨.tends store folder (.refl (.refl _)) atWork.resides continues.passes,
        continues.keeps.single, fun next same => ?_⟩
      obtain rfl := Option.some.inj same
      exact ⟨folder, rfl, stood.stays, continues.keeps, fun _ => ⟨_, _, stood.rebase⟩⟩
  | broken progress stage error held ran =>
      obtain ⟨data, index, stands⟩ := scripted progress held
      have continues := atWork.keeps.run stands (Drafts.steps_filling
        (partition.isFilling_script writer.blockSize writer.nextPosition) data index)
      rw [ran] at continues
      exact atWork.clears continues (.inr rfl)

theorem conclude (atWork : writer.IsAtWork descriptor folder store) (conclusion : Conclusion) :
    Proceeds descriptor store (writer.conclude conclusion store).2 none := by
  have possible := writer.concludes conclusion store
  generalize writer.conclude conclusion store = outcome at possible
  obtain rfl := atWork.table
  have scripted {script : Script} (progress : Progress) (held : writer.progress = some progress)
      (allowed : ∀ data index, ∃ next, (Drafts.filling data index).steps script.steps = some next) :
      Stage.Continues writer.setting.descriptor folder (writer.stage store)
        ((writer.stage store).run writer.setting script).1 := by
    obtain ⟨data, index, stands⟩ := atWork.stands (by rw [held]; exact nofun)
    obtain ⟨next, allowed⟩ := allowed data index
    exact atWork.keeps.run stands allowed
  cases possible with
  | ended result ended answer => exact .alone (.adds (.refl (.refl _))) atWork.keeps.single
  | aborted progress given held => exact atWork.clears atWork.keeps.refl (.inl rfl)
  | broken progress error held reason =>
      exact atWork.clears (scripted progress held (progress.exists_steps_ending _)) (.inl rfl)
  | committed progress stage opened held ran reopens =>
      have continues := scripted progress held (Drafts.exists_steps_commit
        writer.setting.descriptor.version progress.filter progress.statistics)
      rw [ran] at continues
      have told := continues.passes.trans
        (.deliver continues.tends writer.setting.observers .complete)
      exact atWork.ends told continues.keeps.single (.inl rfl)

end IsAtWork

end Calls

/-- A writer is built on a disk on which no file has two paths. -/
theorem proceeds_build (plan : WriterPlan) {store : Store} (single : store.disk.IsSingle) :
    Proceeds plan.descriptor store (build plan store).2 (build plan store).1.toOption := by
  have adds : store.Passes (·.AddsFolders (plan.site store)) (plan.ground store).store := by
    have always := store.disk.always_createFolders plan.descriptor.directory
    rw [← Store.disk_changeAll] at always
    exact .changeAll always
  have grounded : Proceeds plan.descriptor store (plan.ground store).store none :=
    .alone (.adds adds) (adds.first.isSingle single)
  have opens {folder : Path} (resides : plan.descriptor.ResidesIn (plan.site store) folder) :
      Stage.Continues plan.setting.descriptor folder (plan.ground store)
        ((plan.ground store).run plan.setting plan.opening).1 := by
    have keeps : (plan.ground store).KeepsTo plan.setting.descriptor folder :=
      ⟨adds.first.isSingle single, nofun, nofun⟩
    exact keeps.run (plan.stands_ground resides) plan.steps_opening
  have possible := builds plan store
  generalize build plan store = outcome at possible
  cases possible with
  | refused error later same =>
      rcases same with rfl | rfl
      · exact .alone (.adds (.refl (.refl _))) single
      · exact grounded
  | broken stage error ran =>
      rcases WriterPlan.resides_of_opening ran with ⟨_, -, rfl⟩ | ⟨folder, resides⟩
      · exact grounded
      · have continues := opens resides
        rw [ran] at continues
        obtain ⟨passes, single⟩ := continues.clear resides
        exact .alone (.tends _ folder adds resides passes) single
  | built filter stage made ran =>
      obtain ⟨error, failed, -⟩ | ⟨folder, resides⟩ := WriterPlan.resides_of_opening ran
      · cases failed
      · have continues := opens resides
        rw [ran] at continues
        have stands := plan.stands_of_opening resides ran
        refine ⟨.tends _ folder adds resides continues.passes, continues.keeps.single,
          fun writer same => ?_⟩
        obtain rfl := Option.some.inj same
        exact ⟨folder, rfl, stands.stays, continues.keeps, fun _ => ⟨[], [], stands.rebase⟩⟩

end Writer

/-- A call on the writer of a table. -/
inductive Call where
  | build (plan : WriterPlan)
  | append (partition : Partition)
  | conclude (conclusion : Conclusion)

/-- A store with the writers that are at work on it, at most one for each table. -/
structure Workshop where
  store : Store
  writers : Descriptor → Option Writer

namespace Workshop

/-- A disk on which no writer is at work. -/
def ofDisk (disk : Disk) : Workshop := ⟨⟨disk, []⟩, fun _ => none⟩

/-- Calls the writer of a table, which is built only where there is none and gone once concluded. -/
def perform (workshop : Workshop) (descriptor : Descriptor) (call : Call) : Workshop :=
  match call, workshop.writers descriptor with
  | .build plan, none =>
      let (built, store) := Writer.build { plan with descriptor := descriptor } workshop.store
      ⟨store, Function.update workshop.writers descriptor built.toOption⟩
  | .append partition, some writer =>
      let (_, next, store) := writer.append partition workshop.store
      ⟨store, Function.update workshop.writers descriptor (some next)⟩
  | .conclude conclusion, some writer =>
      let (_, store) := writer.conclude conclusion workshop.store
      ⟨store, Function.update workshop.writers descriptor none⟩
  | _, _ => workshop

/-- The calls in order, each with the table that it is for. -/
def performAll (workshop : Workshop) (calls : List (Descriptor × Call)) : Workshop :=
  calls.foldl (fun workshop call => workshop.perform call.1 call.2) workshop

/-- No file has two paths, and every writer is at work on its table in this folder. -/
structure IsOrderly (directory : String) (workshop : Workshop) : Prop where
  single : workshop.store.disk.IsSingle
  atWork : ∀ descriptor writer, workshop.writers descriptor = some writer →
    descriptor.directory = directory ∧ ∃ folder, writer.IsAtWork descriptor folder workshop.store

namespace IsOrderly

variable {directory : String} {workshop : Workshop} {descriptor : Descriptor}

/-- A call leaves the writers of the other tables at work. -/
theorem proceeds (orderly : workshop.IsOrderly directory) (inside : descriptor.directory = directory)
    {later : Store} {next : Option Writer}
    (proceeds : Writer.Proceeds descriptor workshop.store later next) :
    IsOrderly directory ⟨later, Function.update workshop.writers descriptor next⟩ where
  single := proceeds.single
  atWork other writer held := by
    dsimp only at held ⊢
    by_cases same : other = descriptor
    · subst same
      rw [Function.update_self] at held
      exact ⟨inside, proceeds.atWork writer held⟩
    · rw [Function.update_of_ne same] at held
      obtain ⟨inside', folder, atWork⟩ := orderly.atWork other writer held
      exact ⟨inside', folder, atWork.beside
        (proceeds.acts.leaves (inside.trans inside'.symm) (Ne.symm same) atWork.resides)
        proceeds.single⟩

/-- Every call changes its own table alone and leaves the workshop orderly. -/
theorem perform (orderly : workshop.IsOrderly directory) (inside : descriptor.directory = directory)
    (call : Call) :
    descriptor.Acts workshop.store (workshop.perform descriptor call).store ∧
      (workshop.perform descriptor call).IsOrderly directory := by
  have idle : descriptor.Acts workshop.store workshop.store ∧ workshop.IsOrderly directory :=
    ⟨.adds (.refl (.refl _)), orderly⟩
  unfold Workshop.perform
  split
  · rename_i plan nothing
    have proceeds := Writer.proceeds_build { plan with descriptor := descriptor } orderly.single
    exact ⟨proceeds.acts, orderly.proceeds inside proceeds⟩
  · rename_i partition writer held
    obtain ⟨-, folder, atWork⟩ := orderly.atWork descriptor writer held
    have proceeds := atWork.append partition
    exact ⟨proceeds.acts, orderly.proceeds inside proceeds⟩
  · rename_i conclusion writer held
    obtain ⟨-, folder, atWork⟩ := orderly.atWork descriptor writer held
    have proceeds := atWork.conclude conclusion
    exact ⟨proceeds.acts, orderly.proceeds inside proceeds⟩
  · exact idle

theorem performAll (orderly : workshop.IsOrderly directory) {calls : List (Descriptor × Call)}
    (inside : ∀ call ∈ calls, call.1.directory = directory) :
    (workshop.performAll calls).IsOrderly directory := by
  induction calls generalizing workshop with
  | nil => exact orderly
  | cons call rest ih =>
      exact ih (orderly.perform (inside call List.mem_cons_self) call.2).2
        fun other member => inside other (List.mem_cons_of_mem _ member)

end IsOrderly

theorem isOrderly_ofDisk {disk : Disk} (single : disk.IsSingle) (directory : String) :
    (ofDisk disk).IsOrderly directory :=
  ⟨single, fun _ _ held => by cases held⟩

/-- The files of another table have the same bytes at every instant of a call. -/
theorem IsOrderly.passes {directory : String} {workshop : Workshop} {descriptor other : Descriptor}
    (orderly : workshop.IsOrderly directory) (inside : descriptor.directory = directory)
    (inside' : other.directory = directory) (different : other ≠ descriptor) (call : Call)
    {folder : Path}
    (resides : other.ResidesIn (workshop.perform descriptor call).store.disk folder)
    (isFinal : Bool) (component : Component) :
    workshop.store.Passes (fun disk =>
      disk.file? (folder ++ [other.nameOf isFinal component]) =
        workshop.store.disk.file? (folder ++ [other.nameOf isFinal component]))
      (workshop.perform descriptor call).store := by
  refine (orderly.perform inside call).1.passes.mono fun disk same => same _ fun folder' there owned => ?_
  rw [Descriptor.ResidesIn, inside, ← inside'] at there
  obtain rfl := resides.unique there
  exact different ((other.owns_nameOf folder isFinal component).unique
    (inside'.trans inside.symm) owned)

end Workshop

/-- The name of a file tells its table, and a call of a writer changes no file of another table. -/
theorem Workshop.names_keep_apart (directory : String) :
    (∀ generation version component,
      let table : Descriptor := ⟨directory, generation, version⟩
      Descriptor.ofFileName? directory (table.fileName component) = some (table, component) ∧
        ∀ place, Descriptor.ofFileName? place (table.temporaryName component) = none) ∧
    (∀ left right : Descriptor, left.directory = directory → right.directory = directory →
      ∀ component other,
        (left ≠ right ∨ component ≠ other →
          left.fileName component ≠ right.fileName other ∧
            left.temporaryName component ≠ right.temporaryName other) ∧
        left.fileName component ≠ right.temporaryName other) ∧
    ∀ disk : Disk, disk.IsSingle → ∀ calls : List (Descriptor × Call),
      (∀ call ∈ calls, call.1.directory = directory) →
      ∀ descriptor call, descriptor.directory = directory →
      let before := (ofDisk disk).performAll calls
      let after := before.perform descriptor call
      before.store.Passes (fun disk => ∀ path,
        (∀ folder, descriptor.ResidesIn after.store.disk folder → ¬descriptor.Owns folder path) →
        disk.file? path = before.store.disk.file? path) after.store ∧
      ∀ other : Descriptor, other.directory = directory → other ≠ descriptor →
        ∀ folder, other.ResidesIn after.store.disk folder → ∀ isFinal component,
          before.store.Passes (fun disk =>
            disk.file? (folder ++ [other.nameOf isFinal component]) =
              before.store.disk.file? (folder ++ [other.nameOf isFinal component])) after.store := by
  refine ⟨fun generation version component =>
    ⟨Descriptor.ofFileName?_of_fileName _ component,
      Descriptor.ofFileName?_of_temporaryName _ component⟩, ?_, ?_⟩
  · intro left right inside inside' component other
    have folder := inside.trans inside'.symm
    refine ⟨fun differs => ⟨fun same => ?_, fun same => ?_⟩,
      left.fileName_ne_temporaryName right component other⟩
    · obtain ⟨table, part⟩ := Descriptor.fileName_inj folder same
      exact differs.elim (· table) (· part)
    · obtain ⟨table, part⟩ := Descriptor.temporaryName_inj folder same
      exact differs.elim (· table) (· part)
  · intro disk single calls inside descriptor call inside' before after
    have orderly := (isOrderly_ofDisk single directory).performAll inside
    exact ⟨(orderly.perform inside' call).1.passes,
      fun other inside'' different folder resides isFinal component =>
        orderly.passes inside' inside'' different call resides isFinal component⟩

namespace Workshop

/-- Two tables were begun in a folder that the first writer made, each with a partition. -/
def begun : Workshop :=
  (ofDisk .empty).performAll
    [(⟨"tables", 1, .current⟩, .build .unfiltered), (⟨"tables", 2, .current⟩, .build .unfiltered),
      (⟨"tables", 1, .current⟩, .append .tombstone), (⟨"tables", 2, .current⟩, .append .tombstone)]

/-- The first of the two tables was finished. -/
def halfway : Workshop := begun.perform ⟨"tables", 1, .current⟩ (.conclude .finish)

/-- While the first table is finished the unfinished data of the second one are there as before. -/
theorem names_keep_apart_halfway :
    let first : Descriptor := ⟨"tables", 1, .current⟩
    let second : Descriptor := ⟨"tables", 2, .current⟩
    Disk.IsSingle .empty ∧
      halfway.store.disk.file? (["tables"] ++ [first.fileName .contents]) ≠ none ∧
      begun.store.disk.file? (["tables"] ++ [second.temporaryName .data]) ≠ none ∧
      halfway.store.disk.file? (["tables"] ++ [second.nameOf false .data]) =
        begun.store.disk.file? (["tables"] ++ [second.nameOf false .data]) := by
  have evaluated :
      (halfway.store.disk.enter [] (Path.steps "tables")).toOption = some ["tables"] ∧
      halfway.store.disk.file?
        (["tables"] ++ [Descriptor.fileName ⟨"tables", 1, .current⟩ .contents]) ≠ none ∧
      begun.store.disk.file?
        (["tables"] ++ [Descriptor.temporaryName ⟨"tables", 2, .current⟩ .data]) ≠ none := by
    decide +kernel
  obtain ⟨resides, finished, unfinished⟩ := evaluated
  have kept := ((names_keep_apart "tables").2.2 .empty Disk.isSingle_empty _ (by simp)
    ⟨"tables", 1, .current⟩ (.conclude .finish) rfl).2 ⟨"tables", 2, .current⟩ rfl (by decide)
      ["tables"] (Except.toOption_eq_some_iff.1 resides) false .data
  exact ⟨Disk.isSingle_empty, finished, unfinished, kept.last⟩

end Workshop

end SortedTable

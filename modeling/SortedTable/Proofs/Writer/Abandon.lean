import SortedTable.Proofs.Writer.Instants

namespace SortedTable

namespace Disk

/-- Files lost some of these names, and at most these files were written to. -/
structure Loses (disk later : Disk) (names : Path → Prop) (files : Nat → Prop) : Prop where
  nodes : ∀ path, later.node? path = disk.node? path ∨
    names path ∧ later.node? path = none ∧ ∃ id, disk.node? path = some (.file id)
  kept : ∀ id, ¬files id → later.content id = disk.content id

namespace Loses

variable {disk middle later : Disk} {names : Path → Prop} {files : Nat → Prop}

theorem refl (disk : Disk) (names : Path → Prop) (files : Nat → Prop) :
    Loses disk disk names files :=
  ⟨fun _ => .inl rfl, fun _ _ => rfl⟩

theorem trans (first : Loses disk middle names files) (second : Loses middle later names files) :
    Loses disk later names files where
  nodes path := by
    rcases second.nodes path with same | ⟨named, gone, id, held⟩
    · rcases first.nodes path with same' | ⟨named, gone, held⟩
      · exact .inl (same.trans same')
      · exact .inr ⟨named, same.trans gone, held⟩
    · rcases first.nodes path with same' | ⟨-, nothing, -⟩
      · exact .inr ⟨named, gone, id, same' ▸ held⟩
      · rw [nothing] at held
        cases held
  kept id other := (second.kept id other).trans (first.kept id other)

theorem mono (loses : Loses disk later names files) {wider : Path → Prop}
    (widens : ∀ path, names path → wider path) : Loses disk later wider files where
  nodes path := (loses.nodes path).imp_right fun ⟨named, gone⟩ => ⟨widens path named, gone⟩
  kept := loses.kept

/-- The same folders are open: only files lost their names. -/
theorem isOpen_iff (loses : Loses disk later names files) {path : Path} :
    later.IsOpen path ↔ disk.IsOpen path := by
  have folders (front : Path) : later.node? front = some .folder ↔
      disk.node? front = some .folder := by
    rcases loses.nodes front with same | ⟨-, gone, id, held⟩
    · rw [same]
    · rw [gone, held]
      simp
  exact forall₂_congr fun front _ => folders front

/-- What keeps its name keeps its bytes, unless they are those of one of the files. -/
theorem file? (loses : Loses disk later names files) {path : Path} (other : ¬names path)
    (apart : ∀ id, files id → disk.node? path ≠ some (.file id)) :
    later.file? path = disk.file? path := by
  have same := (loses.nodes path).resolve_right fun named => other named.1
  unfold Disk.file?
  rw [same]
  rcases held : disk.node? path with - | - | id
  · rfl
  · rfl
  · exact congrArg some (loses.kept id fun own => apart id own held)

end Loses

/-- Bytes written to one of the files take no name away. -/
theorem Writes.loses {disk later : Disk} {id : Nat} (wrote : disk.Writes later id)
    {files : Nat → Prop} (own : files id) (names : Path → Prop) : disk.Loses later names files where
  nodes path := .inl (wrote.nodes path)
  kept _ other := wrote.kept _ fun same => other (same ▸ own)

end Disk

namespace Descriptor

/-- The path is that of the data or the index of the table, finished or not. -/
def Drafted (descriptor : Descriptor) (disk : Disk) (path : Path) : Prop :=
  ∃ folder, descriptor.ResidesIn disk folder ∧
    ∃ isFinal, ∃ component ∈ [Component.data, .index],
      path = folder ++ [descriptor.nameOf isFinal component]

/-- The table stays in its folder while files lose their names. -/
theorem residesIn_iff {descriptor : Descriptor} {disk later : Disk} {names : Path → Prop}
    {files : Nat → Prop} (loses : disk.Loses later names files) {folder : Path} :
    descriptor.ResidesIn later folder ↔ descriptor.ResidesIn disk folder :=
  ⟨fun resides => resides.of_isOpen fun _ => loses.isOpen_iff.1,
    fun resides => resides.of_isOpen fun _ => loses.isOpen_iff.2⟩

/-- Removing a file of the table that was created first takes at most this name away. -/
theorem loses_discard (descriptor : Descriptor) (store : Store) (isFinal : Bool)
    {component : Component} (member : component ∈ [Component.data, .index]) (files : Nat → Prop) :
    store.disk.Loses (Stage.discard store (descriptor.pathOf isFinal component)).disk
      (descriptor.Drafted store.disk) files := by
  rcases Stage.disk_discard descriptor store isFinal component with
    same | ⟨folder, id, resides, held, removed⟩
  · rw [same]
    exact .refl ..
  · rw [removed]
    refine ⟨fun path => ?_, fun _ _ => rfl⟩
    by_cases same : path = folder ++ [descriptor.nameOf isFinal component]
    · subst same
      exact .inr ⟨⟨folder, resides, isFinal, component, member, rfl⟩, Disk.node?_remove_self
        (Path.isProper_concat folder (descriptor.isName_nameOf isFinal component).proper), id, held⟩
    · exact .inl (Disk.node?_remove_of_ne same)

end Descriptor

namespace Stage

variable {stage : Stage} {files : Nat → Prop}

/-- The stage has created no components but the data and the index, and its open files are these. -/
structure IsDraft (stage : Stage) (files : Nat → Prop) : Prop where
  created : ∀ component ∈ stage.created, component ∈ [Component.data, .index]
  outputs : ∀ output ∈ stage.outputs, files output.file

/-- A filling step changes no more than the bytes of the open files. -/
theorem IsDraft.perform (draft : stage.IsDraft files) (setting : Setting) {step : Step}
    (filling : step.IsFilling) (names : Path → Prop) :
    (stage.perform setting step).1.IsDraft files ∧
      stage.store.disk.Loses (stage.perform setting step).1.store.disk names files := by
  cases step with
  | notify notice => exact ⟨⟨draft.created, draft.outputs⟩, .refl ..⟩
  | write component bytes =>
      rw [Stage.perform]
      rcases writes_of_write setting stage component bytes with
        same | ⟨output, member, wrote, created, outputs⟩
      · rw [same]
        exact ⟨draft, .refl ..⟩
      · refine ⟨⟨created ▸ draft.created, fun next present => ?_⟩,
          wrote.loses (draft.outputs output member) names⟩
        obtain ⟨held, inside, same⟩ := outputs next present
        exact same ▸ draft.outputs held inside
  | create component => cases filling
  | close component => cases filling
  | rename component => cases filling

theorem IsDraft.run (draft : stage.IsDraft files) (setting : Setting) {script : Script}
    (filling : ∀ step ∈ script.steps, step.IsFilling) (names : Path → Prop) :
    (stage.run setting script).1.IsDraft files ∧
      stage.store.disk.Loses (stage.run setting script).1.store.disk names files := by
  rw [fst_run]
  revert filling
  generalize script.steps = steps
  intro filling
  induction steps generalizing stage with
  | nil => exact ⟨draft, .refl ..⟩
  | cons step rest ih =>
      obtain ⟨next, loses⟩ := draft.perform setting (filling step List.mem_cons_self) names
      rw [performAll]
      split
      · rename_i failed
        rw [failed] at next loses
        exact ⟨next, loses⟩
      · rename_i done
        rw [done] at next loses
        obtain ⟨last, loses'⟩ := ih next fun other member =>
          filling other (List.mem_cons_of_mem _ member)
        exact ⟨last, loses.trans loses'⟩

/-- Clearing the stage writes to the open files and removes the data and the index. -/
theorem IsDraft.clear (draft : stage.IsDraft files) (setting : Setting) :
    stage.store.disk.Loses (stage.clear setting).disk (setting.descriptor.Drafted stage.store.disk)
      files := by
  have drained (outputs : List Output) (all : ∀ output ∈ outputs, files output.file)
      (store : Store) (names : Path → Prop) :
      store.disk.Loses (outputs.foldl drain store).disk names files := by
    induction outputs generalizing store with
    | nil => exact .refl ..
    | cons output rest ih =>
        obtain ⟨next, carries⟩ := carries_drain store output
        exact (carries.writes.loses (all output List.mem_cons_self) names).trans
          (ih (fun other member => all other (List.mem_cons_of_mem _ member)) _)
  -- The names are those on the disk before, where the same folders are open.
  have discarded (components : List Component)
      (all : ∀ component ∈ components, component ∈ [Component.data, .index]) (store : Store)
      (loses : stage.store.disk.Loses store.disk
        (setting.descriptor.Drafted stage.store.disk) files) :
      stage.store.disk.Loses (components.foldl (fun store component =>
        discard (discard store (setting.descriptor.temporaryPath component))
          (setting.descriptor.finalPath component)) store).disk
        (setting.descriptor.Drafted stage.store.disk) files := by
    induction components generalizing store with
    | nil => exact loses
    | cons component rest ih =>
        have one (isFinal : Bool) (store : Store) (loses : stage.store.disk.Loses store.disk
            (setting.descriptor.Drafted stage.store.disk) files) :
            stage.store.disk.Loses
              (discard store (setting.descriptor.pathOf isFinal component)).disk
              (setting.descriptor.Drafted stage.store.disk) files := by
          have removed := setting.descriptor.loses_discard store isFinal
            (all component List.mem_cons_self) files
          exact loses.trans (removed.mono fun path ⟨folder, resides, named⟩ =>
            ⟨folder, (Descriptor.residesIn_iff loses).1 resides, named⟩)
        exact ih (fun other member => all other (List.mem_cons_of_mem _ member)) _
          (one true _ (one false _ loses))
  exact discarded _ draft.created _ (drained _ draft.outputs _ _)

end Stage

namespace Writer

variable {writer next : Writer} {store later : Store} {files : Nat → Prop}

/-- The file is open for one of the components. -/
def Opened (writer : Writer) (id : Nat) : Prop := id ∈ writer.outputs.map Output.file

/-- What is done while a writer is at work: before it is given a partition, others change the disk. -/
def appendAmid (writer : Writer) (store : Store) : List (List Change × Partition) → Writer × Store
  | [] => (writer, store)
  | (others, partition) :: rest =>
      let (_, next, later) := writer.append partition (store.changeAll others)
      next.appendAmid later rest

/-- A writer ends without a commit: it is given up or dropped, or it is given a partition and fails. -/
inductive Abandons (writer : Writer) (store : Store) : Store → Prop
  | aborted : Abandons writer store (writer.abort store)
  | failed {partition : Partition} {error : TableError} {next : Writer} {later : Store}
      (answered : writer.append partition store = (.error error, next, later)) :
      Abandons writer store later

/-- The writer of this table has nothing but the data and the index, in these files. -/
structure IsDraft (descriptor : Descriptor) (files : Nat → Prop) (writer : Writer) : Prop where
  descriptor : writer.setting.descriptor = descriptor
  stage : ∀ store, (writer.stage store).IsDraft files

namespace IsDraft

variable {descriptor : Descriptor}

theorem failed (draft : IsDraft descriptor files writer) : IsDraft descriptor files writer.failed :=
  ⟨draft.descriptor, fun _ => ⟨nofun, nofun⟩⟩

theorem append (draft : IsDraft descriptor files writer) (partition : Partition) (store : Store) :
    IsDraft descriptor files (writer.append partition store).2.1 := by
  have possible := writer.appends partition store
  generalize writer.append partition store = outcome at possible
  cases possible with
  | aborted ended => exact draft
  | refused progress error held refusal => exact draft.failed
  | skipped progress held allowed empty => exact ⟨draft.descriptor, fun _ => draft.stage _⟩
  | written progress stage held allowed full ran =>
      obtain ⟨next, -⟩ := (draft.stage store).run writer.setting
        (partition.isFilling_script writer.blockSize writer.nextPosition) fun _ => True
      rw [ran] at next
      exact ⟨draft.descriptor, fun _ => ⟨next.created, next.outputs⟩⟩
  | broken progress stage error held ran => exact draft.failed

theorem appendAmid (draft : IsDraft descriptor files writer)
    (course : List (List Change × Partition)) (store : Store) :
    IsDraft descriptor files (writer.appendAmid store course).1 := by
  induction course generalizing writer store with
  | nil => exact draft
  | cons one rest ih => exact ih (draft.append one.2 (store.changeAll one.1)) _

/-- A writer that ends without a commit changes nothing but its files and their names. -/
theorem abandon (draft : IsDraft descriptor files writer) (abandons : writer.Abandons store later) :
    store.disk.Loses later.disk (descriptor.Drafted store.disk) files := by
  have cleared : store.disk.Loses ((writer.stage store).clear writer.setting).disk
      (descriptor.Drafted store.disk) files := by
    rw [← draft.descriptor]
    exact (draft.stage store).clear writer.setting
  cases abandons with
  | aborted =>
      unfold abort
      split
      · exact .refl ..
      · exact cleared
  | @failed partition error next later answered =>
      have possible := writer.appends partition store
      rw [answered] at possible
      cases possible with
      | aborted ended => exact .refl ..
      | refused progress error held refusal => exact cleared
      | broken progress stage error held ran =>
          obtain ⟨ended, loses⟩ := (draft.stage store).run writer.setting
            (partition.isFilling_script writer.blockSize writer.nextPosition)
            (descriptor.Drafted store.disk)
          rw [ran] at ended loses
          refine loses.trans ((ended.clear writer.setting).mono ?_)
          rintro path ⟨folder, resides, named⟩
          rw [draft.descriptor] at resides named
          exact ⟨folder, (Descriptor.residesIn_iff loses).1 resides, named⟩

end IsDraft

/-- A writer that was just built has created the data and the index. -/
theorem isDraft_of_build {plan : WriterPlan} {begun : Store}
    (built : build plan store = (.ok writer, begun)) :
    IsDraft plan.descriptor writer.Opened writer := by
  have possible := builds plan store
  rw [built] at possible
  cases possible with
  | built filter stage made ran =>
      refine ⟨rfl, fun _ => ⟨fun component member => ?_, fun _ => List.mem_map_of_mem⟩⟩
      exact WriterPlan.created_eq_of_opening ran ▸ member

end Writer

/-- The final names of the data and the index are free, the unfinished ones belong to these files, and
none of these files has a final name of any table. -/
structure Descriptor.Undisturbed (descriptor : Descriptor) (disk : Disk) (files : Nat → Prop) :
    Prop where
  free : ∀ folder, descriptor.ResidesIn disk folder → ∀ component ∈ [Component.data, .index], ∀ id,
    disk.node? (folder ++ [descriptor.fileName component]) ≠ some (.file id)
  own : ∀ folder, descriptor.ResidesIn disk folder → ∀ component ∈ [Component.data, .index], ∀ id,
    disk.node? (folder ++ [descriptor.temporaryName component]) = some (.file id) → files id
  unfinished : ∀ id, files id → ∀ folder (other : Descriptor) component,
    disk.node? (folder ++ [other.fileName component]) ≠ some (.file id)

/-- An undisturbed table loses unfinished names of its own files only, and no final file changes. -/
theorem Descriptor.Undisturbed.keeps {descriptor : Descriptor} {disk later : Disk}
    {files : Nat → Prop} (undisturbed : descriptor.Undisturbed disk files)
    (loses : disk.Loses later (descriptor.Drafted disk) files) :
    (∀ path, later.node? path ≠ disk.node? path → later.node? path = none ∧
      ∃ folder, descriptor.ResidesIn disk folder ∧ ∃ component ∈ [Component.data, .index],
        path = folder ++ [descriptor.temporaryName component] ∧
        ∃ id, files id ∧ disk.node? path = some (.file id)) ∧
    ∀ folder (other : Descriptor) component,
      later.file? (folder ++ [other.fileName component]) =
        disk.file? (folder ++ [other.fileName component]) := by
  have temporary (path : Path) (differs : later.node? path ≠ disk.node? path) :
      later.node? path = none ∧
        ∃ folder, descriptor.ResidesIn disk folder ∧ ∃ component ∈ [Component.data, .index],
          path = folder ++ [descriptor.temporaryName component] ∧
          ∃ id, files id ∧ disk.node? path = some (.file id) := by
    obtain ⟨⟨folder, resides, isFinal, component, member, rfl⟩, gone, id, held⟩ :=
      (loses.nodes path).resolve_left differs
    cases isFinal with
    | false =>
        exact ⟨gone, folder, resides, component, member, rfl, id,
          undisturbed.own folder resides component member id held, held⟩
    | true => exact absurd held (undisturbed.free folder resides component member id)
  refine ⟨temporary, fun folder other component => ?_⟩
  have same : later.node? (folder ++ [other.fileName component]) =
      disk.node? (folder ++ [other.fileName component]) := by
    by_contra differs
    obtain ⟨-, folder', -, component', -, equal, -⟩ := temporary _ differs
    exact Descriptor.fileName_ne_temporaryName other descriptor component component'
      (by simpa using (List.append_inj' equal rfl).2)
  unfold Disk.file?
  rw [same]
  rcases held : disk.node? (folder ++ [other.fileName component]) with - | - | id
  · rfl
  · rfl
  · exact congrArg some (loses.kept id fun own => undisturbed.unfinished id own _ _ _ held)

/-- A writer that ends without a commit touches at most the names of its data and its index. -/
theorem Writer.abandon_spares (plan : WriterPlan) (store begun : Store) (writer : Writer)
    (built : build plan store = (.ok writer, begun)) (course : List (List Change × Partition))
    (others : List Change) :
    let before := (writer.appendAmid begun course).2.changeAll others
    ∀ later, (writer.appendAmid begun course).1.Abandons before later →
      before.disk.Loses later.disk (plan.descriptor.Drafted before.disk) writer.Opened ∧
      (plan.descriptor.Undisturbed before.disk writer.Opened →
        (∀ path, later.disk.node? path ≠ before.disk.node? path →
          later.disk.node? path = none ∧
          ∃ folder, plan.descriptor.ResidesIn before.disk folder ∧
            ∃ component ∈ [Component.data, .index],
              path = folder ++ [plan.descriptor.temporaryName component] ∧
              ∃ id, writer.Opened id ∧ before.disk.node? path = some (.file id)) ∧
        ∀ folder (other : Descriptor) component,
          later.disk.file? (folder ++ [other.fileName component]) =
            before.disk.file? (folder ++ [other.fileName component])) := by
  intro before later abandons
  have loses := ((isDraft_of_build built).appendAmid course begun).abandon abandons
  exact ⟨loses, fun undisturbed => undisturbed.keeps loses⟩

/-- A table is undisturbed if its folder holds the files under their unfinished names and no entry with a
finished name is one of them. -/
theorem Descriptor.undisturbed_of_entries {descriptor : Descriptor} {disk : Disk} {folder : Path}
    {files : List Nat} (resides : descriptor.ResidesIn disk folder)
    (held : ∀ component ∈ [Component.data, .index],
      disk.node? (folder ++ [descriptor.fileName component]) = none ∧
        ∃ id ∈ files, disk.node? (folder ++ [descriptor.temporaryName component]) = some (.file id))
    (marked : ∀ entry ∈ disk.entries, entry.2 ∈ files.map Node.file →
      (entry.1.getLast?.bind withoutMark?).isSome = true) :
    descriptor.Undisturbed disk (· ∈ files) where
  free other resides' component member id found := by
    obtain rfl := resides.unique resides'
    rw [(held component member).1] at found
    cases found
  own other resides' component member id found := by
    obtain rfl := resides.unique resides'
    obtain ⟨id', own, found'⟩ := (held component member).2
    cases found.symm.trans found'
    exact own
  unfinished id own folder other component found := by
    rw [Disk.node?_of_isProper (Path.isProper_concat folder
      (other.isName_fileName component).proper)] at found
    obtain ⟨before, after, same, -⟩ := List.lookup_eq_some_iff.1 found
    have named := marked (folder ++ [other.fileName component], .file id) (by simp [same])
      (List.mem_map_of_mem own)
    rw [List.getLast?_concat, Option.bind_some, withoutMark?_fileName] at named
    cases named

namespace WriterPlan

/-- The changes by which a table of this generation with one partition is committed. -/
def committing (generation : UInt64) (disk : Disk) : List Change :=
  let plan := { unfiltered with descriptor := ⟨"tables", generation, .current⟩ }
  (plan.run [.tombstone] .finish ⟨disk, []⟩).store.changes

end WriterPlan

namespace Writer

open WriterPlan

/-- A table that was committed beside it in the meantime is kept when a writer is given up. -/
theorem abandon_spares_neighbour :
    ∃ writer begun, build unfiltered ⟨.empty, []⟩ = (.ok writer, begun) ∧
      let course := [(committing 2 begun.disk, Partition.tombstone)]
      let before := (writer.appendAmid begun course).2
      let later := (writer.appendAmid begun course).1.abort before
      let data := ["tables"] ++ [Descriptor.fileName ⟨"tables", 2, .current⟩ .data]
      before.disk.file? data ≠ none ∧ later.disk.file? data = before.disk.file? data := by
  have succeeded : (build unfiltered ⟨.empty, []⟩).1.toOption.isSome = true := by decide +kernel
  have built := Prod.ext (Except.eq_ok_getD succeeded) rfl
  refine ⟨_, _, built, ?_⟩
  intro course before later data
  have evaluated : before.disk.file? data ≠ none ∧
      (before.disk.enter [] (Path.steps "tables")).toOption = some ["tables"] ∧
      (∀ component ∈ [Component.data, .index],
        before.disk.node? (["tables"] ++ [unfiltered.descriptor.fileName component]) = none ∧
        ∃ id ∈ ((build unfiltered ⟨.empty, []⟩).1.toOption.getD default).outputs.map Output.file,
          before.disk.node? (["tables"] ++ [unfiltered.descriptor.temporaryName component]) =
            some (.file id)) ∧
      ∀ entry ∈ before.disk.entries,
        entry.2 ∈ (((build unfiltered ⟨.empty, []⟩).1.toOption.getD default).outputs.map
          Output.file).map Node.file → (entry.1.getLast?.bind withoutMark?).isSome = true := by
    decide +kernel
  obtain ⟨present, resides, held, marked⟩ := evaluated
  have undisturbed := Descriptor.undisturbed_of_entries (Except.toOption_eq_some_iff.1 resides)
    held marked
  exact ⟨present, ((abandon_spares unfiltered ⟨.empty, []⟩ _ _ built course [] later .aborted).2
    undisturbed).2 ["tables"] _ .data⟩

/-- A writer that is given up takes away the data of a table that another one committed meanwhile. -/
theorem abandon_removes_committed :
    ∃ writer begun, build unfiltered ⟨.empty, []⟩ = (.ok writer, begun) ∧
      let before := begun.changeAll (committing 1 begun.disk)
      let later := writer.abort before
      unfiltered.descriptor.isCommitted before.disk = true ∧
      before.disk.exists? (unfiltered.descriptor.finalPath .data) = true ∧
      unfiltered.descriptor.isCommitted later.disk = true ∧
      later.disk.exists? (unfiltered.descriptor.finalPath .data) = false := by
  have succeeded : (build unfiltered ⟨.empty, []⟩).1.toOption.isSome = true := by decide +kernel
  refine ⟨_, _, Prod.ext (Except.eq_ok_getD succeeded) rfl, ?_⟩
  decide +kernel

end Writer

end SortedTable

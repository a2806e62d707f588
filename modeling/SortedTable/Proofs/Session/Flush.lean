import SortedTable.Proofs.Flush
import SortedTable.Proofs.Session.Sources

namespace SortedTable

namespace Session

variable {session next : Session} {medium : Medium} {store later : Store}
  {summary : Option FlushSummary}

/-- A session that is started is opened on the disk as it is then. -/
theorem ofDisk_of_start {settings : Settings}
    (started : Session.start settings store = (.ok session, later)) :
    ofDisk settings later.disk = .ok session := by
  unfold Session.start at started
  split at started
  · cases started
  · split at started
    · cases started
    · obtain ⟨same, rfl⟩ := Prod.mk.inj started
      exact same

/-- A session that is started on a folder that is there creates none. -/
theorem start_of_find {settings : Settings} (valid : settings.validate = .ok ())
    (found : store.disk.find settings.dataDir = .ok .folder) :
    Session.start settings store = (ofDisk settings store.disk, store) := by
  unfold Session.start
  rw [valid]
  dsimp only
  rw [Store.createFolders, Disk.createFolders_of_find found]
  rfl

/-- A session that was opened has every committed table of its folder, and nothing in its buffer. -/
theorem ofDisk_eq_ok {settings : Settings} {disk : Disk}
    (opened : ofDisk settings disk = .ok session) {names : List String}
    (listed : disk.names settings.dataDir = .ok names) :
    ∃ tables next, session = { settings, tables, nextGeneration := next } ∧
      tables.map Reader.descriptor = Descriptor.committed settings.dataDir names ∧
      (∀ table ∈ tables, Reader.load disk table.descriptor = .ok table) ∧
      Descriptor.nextGeneration names = .ok next := by
  obtain ⟨_, named, opened⟩ := Except.bind_eq_ok_iff.1 opened
  rw [Except.mapError_eq_ok_iff, listed] at named
  cases named
  obtain ⟨tables, loaded, opened⟩ := Except.bind_eq_ok_iff.1 opened
  obtain ⟨next, counted, opened⟩ := Except.bind_eq_ok_iff.1 opened
  rw [Except.mapError_eq_ok_iff] at counted
  cases opened
  have loads : List.Forall₂ (fun descriptor table => Reader.load disk descriptor = .ok table)
      (Descriptor.committed settings.dataDir names) tables :=
    (Except.mapM_eq_ok_iff.1 loaded).imp fun _ _ opens => Except.mapError_eq_ok_iff.1 opens
  have own : List.Forall₂ (fun descriptor table => descriptor = Reader.descriptor table)
      (Descriptor.committed settings.dataDir names) tables :=
    loads.imp fun _ _ loaded => (Reader.load_eq_ok_iff.1 loaded).1.symm
  rw [← List.forall₂_map_right_iff, List.forall₂_eq_eq_eq] at own
  rw [own, List.forall₂_map_left_iff, List.forall₂_same] at loads
  exact ⟨tables, next, rfl, own.symm, loads, counted⟩

/-- A session that is started has the committed tables of its folder and the generation behind all names. -/
theorem opened_of_start {settings : Settings}
    (started : Session.start settings store = (.ok session, later)) :
    ∃ names tables next, later.disk.names settings.dataDir = .ok names ∧
      session = { settings, tables, nextGeneration := next } ∧
      tables.map Reader.descriptor = Descriptor.committed settings.dataDir names ∧
      (∀ table ∈ tables, Reader.load later.disk table.descriptor = .ok table) ∧
      Descriptor.nextGeneration names = .ok next := by
  have opened := ofDisk_of_start started
  obtain ⟨names, named, -⟩ := Except.bind_eq_ok_iff.1 opened
  have listed := Except.mapError_eq_ok_iff.1 named
  obtain ⟨tables, next, shape⟩ := ofDisk_eq_ok opened listed
  exact ⟨names, tables, next, listed, shape⟩

/-- The table of a flush is of the next generation, in the folder of the session. -/
theorem flushPlan_eq_ok {plan : WriterPlan} (planned : session.flushPlan medium = .ok plan) :
    plan.settings = session.settings ∧ plan.medium = medium ∧
      plan.descriptor.directory = session.settings.dataDir ∧
      plan.descriptor.generation = session.nextGeneration := by
  obtain ⟨descriptor, named, rfl⟩ := Except.map_eq_ok_iff.1 planned
  unfold Descriptor.ofSettings at named
  split at named
  · cases named
    exact ⟨rfl, rfl, rfl, rfl⟩
  · cases named

/-- What a flush that succeeds has done. -/
theorem flush_eq_ok (flushed : session.flush medium store = (.ok summary, next, later)) :
    session.memtable.isEmpty = true ∧ next = session ∧ later = store ∨
      ∃ plan reader generation, session.flushPlan medium = .ok plan ∧
        session.memtable.flush plan store = (.ok reader, later) ∧
        exactSum session.nextGeneration 1 = .ok generation ∧
        next = { session with
          tables := session.tables ++ [reader]
          nextGeneration := generation
          memtable := {} } := by
  unfold flush at flushed
  split at flushed
  · rename_i empty
    cases flushed
    exact .inl ⟨empty, rfl, rfl⟩
  · split at flushed
    · cases flushed
    · rename_i plan planned
      dsimp only at flushed
      split at flushed
      · cases flushed
      · rename_i reader ended written
        unfold advance at flushed
        dsimp only at flushed
        cases counted : exactSum session.nextGeneration 1 with
        | error cause =>
            rw [counted] at flushed
            cases flushed
        | ok generation =>
            rw [counted] at flushed
            cases flushed
            exact .inr ⟨plan, reader, generation, planned, written, rfl, rfl⟩

/-- What a flush that fails has done: nothing, a table that failed, or one of the last generation. -/
theorem flush_eq_error {error : SessionError}
    (failed : session.flush medium store = (.error error, next, later)) :
    (next = session ∧ (later = store ∨ ∃ plan cause, session.memtable.isEmpty = false ∧
      session.flushPlan medium = .ok plan ∧
      session.memtable.flush plan store = (.error cause, later))) ∨
    ∃ plan reader cause, session.flushPlan medium = .ok plan ∧
      session.memtable.flush plan store = (.ok reader, later) ∧
      exactSum session.nextGeneration 1 = .error cause ∧ error = .overflow cause := by
  unfold flush at failed
  split at failed
  · cases failed
  · rename_i full
    split at failed
    · cases failed
      exact .inl ⟨rfl, .inl rfl⟩
    · rename_i plan planned
      dsimp only at failed
      split at failed
      · rename_i cause ended written
        cases failed
        exact .inl ⟨rfl, .inr ⟨plan, cause, Bool.eq_false_iff.2 full, planned, written⟩⟩
      · rename_i reader ended written
        unfold advance at failed
        dsimp only at failed
        cases counted : exactSum session.nextGeneration 1 with
        | error cause =>
            rw [counted] at failed
            cases failed
            exact .inr ⟨plan, reader, cause, planned, written, rfl, rfl⟩
        | ok generation =>
            rw [counted] at failed
            cases failed

/-- The folder of a session is there, and nothing has a name of a generation to come. -/
structure IsReady (settings : Settings) (folder : Path) (session : Session) (disk : Disk) : Prop where
  same : session.settings = settings
  located : disk.locate settings.dataDir = .ok (folder, .folder)
  vacant : ∀ descriptor : Descriptor, descriptor.directory = settings.dataDir →
    session.nextGeneration ≤ descriptor.generation → ∀ isFinal component,
      disk.node? (folder ++ [descriptor.nameOf isFinal component]) = none

namespace IsReady

variable {settings : Settings} {folder : Path}

/-- The table of the next flush resides in the folder of the session, and its names are vacant. -/
theorem resides (ready : session.IsReady settings folder store.disk) {plan : WriterPlan}
    (planned : session.flushPlan medium = .ok plan) :
    plan.site store = store.disk ∧ plan.descriptor.ResidesIn store.disk folder ∧
      plan.descriptor.IsVacant store.disk := by
  obtain ⟨given, -, directory, own⟩ := flushPlan_eq_ok planned
  rw [ready.same] at directory
  have located := ready.located
  rw [← directory] at located
  have resides : plan.descriptor.ResidesIn store.disk folder := Disk.enter_of_locate located
  refine ⟨WriterPlan.site_of_locate located, resides, fun other resides' => ?_⟩
  obtain rfl := resides.unique resides'
  exact ready.vacant plan.descriptor directory (by rw [own]; exact UInt64.le_refl _)

/-- A flush of a plain buffer leaves a table with its partitions, and the session ready for the next
one. -/
theorem flush (ready : session.IsReady settings folder store.disk)
    (plain : session.memtable.IsPlain)
    (keeps : ∀ component, (medium.sink component).keeps = true)
    (units : ∀ partition ∈ session.memtable.toList, partition.UnitsFit) {plan : WriterPlan}
    {reader : Reader} {generation : UInt64} (planned : session.flushPlan medium = .ok plan)
    (flushed : session.memtable.flush plan store = (.ok reader, later))
    (counted : exactSum session.nextGeneration 1 = .ok generation) :
    plan.descriptor.Spares folder store.disk later.disk ∧
      (∃ placed : List (Placed settings.blockSize),
        (placed.map fun one => one.partition) = session.memtable.toList ∧
        reader.Serves later.disk placed) ∧
      IsReady settings folder
        { session with
          tables := session.tables ++ [reader]
          nextGeneration := generation
          memtable := {} } later.disk := by
  obtain ⟨still, resides, vacant⟩ := ready.resides planned
  obtain ⟨given, rfl, directory, own⟩ := flushPlan_eq_ok planned
  obtain rfl : plan.settings = settings := given.trans ready.same
  rw [← given] at directory
  rw [← still] at resides vacant
  have spares := Memtable.spares_of_flush vacant resides flushed
  obtain ⟨placed, serves, same⟩ := Memtable.serves_of_flush keeps vacant units flushed
  have bare := vacant folder resides
  rw [still] at spares bare
  rw [List.filter_eq_self.2 fun partition member => by rw [plain.isEmpty member]; rfl] at same
  refine ⟨spares, ⟨placed, same, serves⟩, ready.same, ?_, ?_⟩
  · exact Disk.locate_of_isOpen (fun path => spares.isOpen bare) ready.located
  · intro other directory' further isFinal component
    -- a later generation is another table, so its names are as vacant as before the flush
    have above : session.nextGeneration.toNat < other.generation.toNat := by
      have next := toNat_of_exactSum counted
      have one : (1 : UInt64).toNat = 1 := rfl
      rw [UInt64.le_iff_toNat_le] at further
      dsimp only at further
      omega
    have different : other ≠ plan.descriptor := by
      rintro rfl
      rw [own] at above
      omega
    rw [spares.node?_nameOf (directory'.trans directory.symm) different]
    exact ready.vacant other directory' (UInt64.le_iff_toNat_le.2 (by omega)) isFinal component

end IsReady

/-- A session that is ready, and whose tables serve these partitions. -/
structure IsStocked (settings : Settings) (folder : Path)
    (shelves : List (List (Placed settings.blockSize))) (session : Session) (disk : Disk) : Prop
    extends IsReady settings folder session disk where
  serves : List.Forall₂ (fun table placed => table.Serves disk placed) session.tables shelves

/-- A flush of a plain buffer in which no unit is too large puts its partitions behind the others. -/
theorem IsStocked.flush {settings : Settings} {folder : Path}
    {shelves : List (List (Placed settings.blockSize))}
    (stocked : IsStocked settings folder shelves session store.disk)
    (plain : session.memtable.IsPlain)
    (keeps : ∀ component, (medium.sink component).keeps = true)
    (units : ∀ partition ∈ session.memtable.toList, partition.UnitsFit) {plan : WriterPlan}
    {reader : Reader} {generation : UInt64} (planned : session.flushPlan medium = .ok plan)
    (flushed : session.memtable.flush plan store = (.ok reader, later))
    (counted : exactSum session.nextGeneration 1 = .ok generation) :
    ∃ placed : List (Placed settings.blockSize),
      (placed.map fun one => one.partition) = session.memtable.toList ∧
      reader.Serves later.disk placed ∧
      IsStocked settings folder (shelves ++ [placed])
        { session with
          tables := session.tables ++ [reader]
          nextGeneration := generation
          memtable := {} } later.disk := by
  obtain ⟨spares, ⟨placed, same, serves⟩, ready⟩ :=
    stocked.toIsReady.flush plain keeps units planned flushed counted
  refine ⟨placed, same, serves, ready, ?_⟩
  refine List.rel_append (stocked.serves.imp fun table shelf served => ?_) (.cons serves .nil)
  exact served.kept spares.grown spares.kept

end Session

end SortedTable

import SortedTable.Flush
import SortedTable.Proofs.RoundTrip
import SortedTable.Proofs.Writer.Atomic

namespace SortedTable

/-- Behind a failure the other partitions might be given to a writer too, as it changes nothing any
more. -/
theorem Writer.appendEach_of_appendAll {writer last : Writer} {store later : Store}
    {partitions : List Partition} {outcome : Except TableError Unit}
    (all : writer.appendAll store partitions = (outcome, last, later)) :
    ∃ attempts, writer.appendEach store partitions = (attempts, last, later) ∧
      ∀ error, outcome = .error error → last.progress = none := by
  induction partitions generalizing writer store with
  | nil =>
      cases all
      exact ⟨[], rfl, nofun⟩
  | cons partition rest ih =>
      rw [appendAll] at all
      rw [appendEach]
      split at all
      · rename_i error next middle failed
        cases all
        have ended := progress_of_append_error failed
        rw [failed]
        dsimp only
        rw [appendEach_of_failed ended]
        exact ⟨_, rfl, fun _ _ => ended⟩
      · rename_i answer next middle appended
        obtain ⟨attempts, each, failed⟩ := ih all
        refine ⟨⟨partition, writer.position?, .ok answer⟩ :: attempts, ?_, failed⟩
        rw [appended]
        dsimp only
        rw [each]

namespace Memtable

variable {memtable : Memtable} {plan : WriterPlan} {store later : Store} {reader : Reader}

/-- The plan of the table for a buffer: it expects all keys of the buffer. -/
def planOf (memtable : Memtable) (plan : WriterPlan) : WriterPlan :=
  { plan with expected := UInt64.ofNat memtable.size }

/-- A flush that succeeds is a run that commits its table and opens it. -/
theorem run_of_flush (flushed : memtable.flush plan store = (.ok reader, later)) :
    ((memtable.planOf plan).run memtable.toList .finishAndOpen store).built = .ok () ∧
      ((memtable.planOf plan).run memtable.toList .finishAndOpen store).result =
        some (.ok (some reader)) ∧
      ((memtable.planOf plan).run memtable.toList .finishAndOpen store).store = later := by
  unfold flush at flushed
  split at flushed
  · cases flushed
  · split at flushed
    · cases flushed
    · rename_i writer begun built
      split at flushed
      · cases flushed
      · rename_i done last middle all
        obtain ⟨attempts, each, -⟩ := Writer.appendEach_of_appendAll all
        have ran := WriterPlan.run_of_built built memtable.toList .finishAndOpen
        rw [planOf, ran]
        dsimp only
        rw [each]
        dsimp only
        rw [Writer.conclude, flushed]
        exact ⟨rfl, rfl, rfl⟩

/-- A flush that fails, unless there is nothing to write, is a run that does not commit its table. -/
theorem run_of_flush_error {error : TableError} (full : memtable.isEmpty = false)
    (flushed : memtable.flush plan store = (.error error, later)) :
    ¬((memtable.planOf plan).run memtable.toList .finishAndOpen store).IsCommitted ∧
      ((memtable.planOf plan).run memtable.toList .finishAndOpen store).store = later := by
  unfold flush at flushed
  rw [full, if_neg Bool.false_ne_true] at flushed
  split at flushed
  · rename_i cause begun refused
    cases flushed
    rw [planOf, WriterPlan.run_of_refused refused]
    exact ⟨nofun, rfl⟩
  · rename_i writer begun built
    rw [planOf, WriterPlan.run_of_built built]
    dsimp only
    split at flushed
    · rename_i cause last middle all
      cases flushed
      obtain ⟨attempts, each, ended⟩ := Writer.appendEach_of_appendAll all
      rw [each]
      dsimp only
      rw [Writer.conclude_of_failed (ended _ rfl), if_neg nofun]
      exact ⟨nofun, rfl⟩
    · rename_i done last middle all
      obtain ⟨attempts, each, -⟩ := Writer.appendEach_of_appendAll all
      rw [each]
      dsimp only
      rw [Writer.conclude, flushed]
      exact ⟨nofun, rfl⟩

/-- The table of a flush serves the partitions of the buffer that are not empty. -/
theorem serves_of_flush (keeps : ∀ component, (plan.medium.sink component).keeps = true)
    (vacant : plan.descriptor.IsVacant (plan.site store))
    (units : ∀ partition ∈ memtable.toList, partition.UnitsFit)
    (flushed : memtable.flush plan store = (.ok reader, later)) :
    ∃ placed : List (Placed plan.settings.blockSize), reader.Serves later.disk placed ∧
      (placed.map fun one => one.partition) =
        memtable.toList.filter fun partition => !partition.isEmpty := by
  obtain ⟨-, committed, ended⟩ := run_of_flush flushed
  have vacant' : (memtable.planOf plan).descriptor.IsVacant ((memtable.planOf plan).site store) :=
    vacant
  have keeps' : ∀ component, ((memtable.planOf plan).medium.sink component).keeps = true := keeps
  obtain ⟨placed, folder, progress, stage, data, index, fields, places, last, gathers, laid, -,
    shows', reopens⟩ := WriterPlan.placed_of_committed vacant' committed
  obtain ⟨reader', same, reopened⟩ := reopens
  cases same
  have entries := Reader.entries_of_ofParts (keeps' .index) laid shows'.toFollows reopened
  obtain ⟨opened, lists, opens⟩ :=
    Reader.ofParts_of_follows keeps' gathers laid entries shows'.toFollows
  have again := (opens plan.medium).symm.trans reopened
  obtain ⟨-, -, again⟩ := Except.bind_eq_ok_iff.1 again
  obtain ⟨-, -, again⟩ := Except.bind_eq_ok_iff.1 again
  cases Except.pure_eq_ok_iff.1 again
  refine ⟨placed, ?_, places.partitions_eq⟩
  rw [← ended, last, Store.disk_deliver]
  exact ⟨lists, places.units units⟩

/-- The table that a flush hands over is the one that its descriptor opens. -/
theorem load_of_flush (keeps : ∀ component, (plan.medium.sink component).keeps = true)
    (vacant : plan.descriptor.IsVacant (plan.site store))
    (flushed : memtable.flush plan store = (.ok reader, later)) :
    Reader.load later.disk plan.descriptor = .ok reader := by
  obtain ⟨-, committed, ended⟩ := run_of_flush flushed
  have vacant' : (memtable.planOf plan).descriptor.IsVacant ((memtable.planOf plan).site store) :=
    vacant
  have keeps' : ∀ component, ((memtable.planOf plan).medium.sink component).keeps = true := keeps
  obtain ⟨placed, folder, progress, stage, data, index, fields, -, last, gathers, -, encoded,
    shows', reopens⟩ := WriterPlan.placed_of_committed vacant' committed
  obtain ⟨reader', same, handed⟩ := reopens
  cases same
  rw [← ended, last, Store.disk_deliver]
  exact Reader.load_of_ofParts keeps' gathers.readable encoded shows' handed

/-- The table that a flush hands over is the planned one and open on the disk. -/
theorem opens_of_flush (vacant : plan.descriptor.IsVacant (plan.site store))
    (flushed : memtable.flush plan store = (.ok reader, later)) :
    reader.descriptor = plan.descriptor ∧ reader.IsOpenOn later.disk := by
  obtain ⟨-, committed, ended⟩ := run_of_flush flushed
  have vacant' : (memtable.planOf plan).descriptor.IsVacant ((memtable.planOf plan).site store) :=
    vacant
  obtain ⟨placed, folder, progress, stage, data, index, fields, -, last, -, -, -, -, reopens⟩ :=
    WriterPlan.placed_of_committed vacant' committed
  obtain ⟨reader', same, handed⟩ := reopens
  cases same
  rw [← ended, last, Store.disk_deliver]
  obtain ⟨-, -, same, -, -, opened⟩ := Reader.ofParts_eq_ok_iff.1 handed
  exact ⟨same, opened⟩

/-- A flush spares all that is not under a name of its table. -/
theorem spares_of_flush (vacant : plan.descriptor.IsVacant (plan.site store)) {folder : Path}
    (resides : plan.descriptor.ResidesIn (plan.site store) folder)
    (flushed : memtable.flush plan store = (.ok reader, later)) :
    plan.descriptor.Spares folder (plan.site store) later.disk := by
  obtain ⟨built, -, ended⟩ := run_of_flush flushed
  have vacant' : (memtable.planOf plan).descriptor.IsVacant ((memtable.planOf plan).site store) :=
    vacant
  have resides' : (memtable.planOf plan).descriptor.ResidesIn ((memtable.planOf plan).site store)
      folder := resides
  rw [← ended]
  exact WriterPlan.spares_run vacant' resides' built

/-- A flush that fails leaves nothing under the names of its table and spares all else. -/
theorem spares_of_flush_error {error : TableError} (full : memtable.isEmpty = false)
    (still : plan.site store = store.disk) (vacant : plan.descriptor.IsVacant store.disk)
    {folder : Path} (resides : plan.descriptor.ResidesIn store.disk folder)
    (flushed : memtable.flush plan store = (.error error, later)) :
    plan.descriptor.Spares folder store.disk later.disk ∧
      plan.descriptor.IsVacant later.disk := by
  obtain ⟨never, rfl⟩ := run_of_flush_error full flushed
  have still' : (memtable.planOf plan).site store = store.disk := still
  have vacant' : (memtable.planOf plan).descriptor.IsVacant store.disk := vacant
  exact WriterPlan.spares_of_uncommitted still' vacant' resides never

end Memtable

/-- The files of another table in the same folder are kept. -/
theorem Descriptor.Spares.keepsFile {descriptor other : Descriptor} {folder : Path}
    {base disk : Disk} (spares : descriptor.Spares folder base disk)
    (vacant : ∀ isFinal component,
      base.node? (folder ++ [descriptor.nameOf isFinal component]) = none)
    (resides : other.ResidesIn base folder) (directory : other.directory = descriptor.directory)
    (different : other ≠ descriptor) (component : Component) :
    other.KeepsFile base disk component := by
  have stays : other.ResidesIn disk folder := resides.of_isOpen fun _ => spares.isOpen vacant
  refine ⟨fun node => ?_, fun node found => ?_⟩
  · rw [← pathOf_true, find_pathOf_iff stays, find_pathOf_iff resides,
      spares.node?_nameOf directory different]
  · rw [← pathOf_true] at found
    have held := node?_of_find resides found
    cases node with
    | folder => rfl
    | file id => exact congrArg Except.ok (spares.kept id (Disk.lt_size_of_node? held))

/-- An open table whose files are kept finds what it found. -/
theorem Reader.partition?_of_keepsFile {reader : Reader} {disk later : Disk}
    (keeps : ∀ component, reader.descriptor.KeepsFile disk later component)
    (loaded : load disk reader.descriptor = .ok reader) (key : Key) :
    reader.partition? later key = reader.partition? disk key := by
  obtain ⟨-, -, -, -, whole⟩ := load_eq_ok_iff.1 loaded
  exact partition?_congr ((keeps .index).read _ (liftIo_eq_ok_iff.1 whole.index))
    ((keeps .data).read _ (liftIo_eq_ok_iff.1 whole.data)) key

end SortedTable

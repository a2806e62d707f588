import SortedTable.Proofs.Determinacy
import SortedTable.Proofs.Session.Housed
import SortedTable.Proofs.Session.Writable

namespace SortedTable

namespace Session

variable {settings : Settings} {folder : Path} {session next : Session} {store later : Store}

/-- A write or a deletion changes the time and the buffer alone, and leaves something in the buffer. -/
theorem exists_write (plain : session.memtable.IsPlain) {action : Action}
    (writes : action.key?.isSome = true) :
    ∃ (time : Int64) (changed : Memtable), changed.IsPlain ∧ changed.isEmpty = false ∧
      ∀ store, session.perform store action =
        .ok ({ session with lastTimestamp := time, memtable := changed }, store) := by
  cases action with
  | put now key column value =>
      exact ⟨_, _, plain.put key _, Memtable.isEmpty_of_insert (Memtable.partitions_put _ key [] _),
        fun _ => rfl⟩
  | putStatic now key column value =>
      exact ⟨_, _, plain.putStatic key _,
        Memtable.isEmpty_of_insert (Memtable.partitions_putStatic _ key _), fun _ => rfl⟩
  | delete now key =>
      exact ⟨_, _, plain.deletePartition key (isLive_secondsOf _),
        Memtable.isEmpty_of_insert (Memtable.partitions_deletePartition _ key _), fun _ => rfl⟩
  | flush medium => cases writes

/-- So do writes and deletions one after the other. -/
theorem exists_performAll_writes (plain : session.memtable.IsPlain)
    (full : session.memtable.isEmpty = false) (actions : List Action) :
    ∃ (time : Int64) (changed : Memtable), changed.IsPlain ∧ changed.isEmpty = false ∧
      ∀ store, session.performAll store (writes actions) =
        .ok ({ session with lastTimestamp := time, memtable := changed }, store) := by
  induction actions generalizing session with
  | nil => exact ⟨session.lastTimestamp, session.memtable, plain, full, fun _ => rfl⟩
  | cons action rest ih =>
      by_cases chosen : action.key?.isSome = true
      · have front : writes (action :: rest) = action :: writes rest :=
          List.filter_cons_of_pos chosen
        obtain ⟨wrote, held, plain', full', first⟩ := exists_write plain chosen
        obtain ⟨time, changed, plain'', full'', others⟩ :=
          @ih { session with lastTimestamp := wrote, memtable := held } plain' full'
        refine ⟨time, changed, plain'', full'', fun store => ?_⟩
        rw [front]
        exact Except.bind_eq_ok_iff.2 ⟨_, first store, others store⟩
      · have front : writes (action :: rest) = writes rest := List.filter_cons_of_neg chosen
        rw [front]
        exact ih plain full

/-- On a medium without faults a table keeps what it takes. -/
theorem keeps_of_flushPlan {plan : WriterPlan} (planned : session.flushPlan .sound = .ok plan)
    (component : Component) : (plan.medium.sink component).keeps = true := by
  rw [(flushPlan_eq_ok planned).2.1]
  rfl

namespace IsHoused

/-- One buffer that becomes one table, in a folder and in the same folder untouched, leaves the same
bytes under every name. -/
theorem file?_eq_of_written {plan : WriterPlan} {reader reader' : Reader} {store' later' : Store}
    (housed : session.IsHoused settings folder store.disk)
    (untouched : Untouched settings folder store.disk store'.disk)
    (planned : session.flushPlan .sound = .ok plan)
    (written : session.memtable.flush plan store = (.ok reader, later))
    (written' : session.memtable.flush plan store' = (.ok reader', later')) (name : String) :
    later'.disk.file? (folder ++ [name]) = later.disk.file? (folder ++ [name]) := by
  obtain ⟨still, resides, vacant⟩ := housed.ready.resides planned
  obtain ⟨still', resides', vacant'⟩ := (housed.untouched untouched).ready.resides planned
  rw [← still] at resides vacant
  rw [← still'] at resides' vacant'
  by_cases owned : plan.descriptor.Owns folder (folder ++ [name])
  · obtain ⟨isFinal, component, rfl⟩ := Descriptor.exists_nameOf_of_owns owned
    obtain ⟨-, committed, rfl⟩ := Memtable.run_of_flush written
    obtain ⟨-, committed', rfl⟩ := Memtable.run_of_flush written'
    have given := keeps_of_flushPlan planned
    have keeps : ∀ component,
        ((session.memtable.planOf plan).medium.sink component).keeps = true := given
    exact WriterPlan.file?_eq_of_committed keeps vacant' vacant resides' resides committed' committed
      isFinal component
  · have spares := Memtable.spares_of_flush vacant resides written
    have spares' := Memtable.spares_of_flush vacant' resides' written'
    rw [spares.file? owned, spares'.file? owned, still, still']
    exact untouched.file? name

/-- A table that a flush wrote is the one that its descriptor opens. -/
theorem load_of_written (housed : session.IsHoused settings folder store.disk) {plan : WriterPlan}
    {reader : Reader} (planned : session.flushPlan .sound = .ok plan)
    (written : session.memtable.flush plan store = (.ok reader, later)) :
    reader.descriptor = plan.descriptor ∧ Reader.load later.disk reader.descriptor = .ok reader := by
  obtain ⟨still, -, vacant⟩ := housed.ready.resides planned
  rw [← still] at vacant
  have loaded := Memtable.load_of_flush (keeps_of_flushPlan planned) vacant written
  have same : reader.descriptor = plan.descriptor := (Reader.load_eq_ok_iff.1 loaded).1
  rw [← same] at loaded
  exact ⟨same, loaded⟩

end IsHoused

/-- A flush on a medium without faults makes this table of the buffer, and the generations go on. -/
structure FlushesTo (session : Session) (store : Store) (generation : UInt64) (table : Reader)
    (later : Store) : Prop where
  flushed : ∃ summary, session.flush .sound store = (.ok (some summary),
    { session with
      tables := session.tables ++ [table]
      nextGeneration := generation
      memtable := {} }, later)
  loaded : Reader.load later.disk table.descriptor = .ok table

/-- A flush that fails loses nothing, and a flush without faults makes up for it. -/
theorem flush_error_loses_nothing {opened : Session} {began reached : Store} {actions : List Action}
    {medium : Medium} {error : SessionError}
    (started : Session.start settings store = (.ok opened, began))
    (underwent : opened.undergoAll began actions = (.ok session, reached))
    (failed : session.flush medium reached = (.error error, next, later))
    (counted : ∀ cause, error ≠ .overflow cause) :
    next = session ∧ (∀ key, next.get later.disk key = session.get reached.disk key) ∧
      ∃ folder names, later.disk.locate settings.dataDir = .ok (folder, .folder) ∧
        later.disk.names settings.dataDir = .ok names ∧
        (∀ name ∈ names, Descriptor.generationOf? name ≠ some session.nextGeneration) ∧
        ∀ more, ∃ changed, next.performAll later (writes more) = .ok (changed, later) ∧
          session.performAll reached (writes more) = .ok (changed, reached) ∧
          ∀ generation, exactSum session.nextGeneration 1 = .ok generation → changed.IsEncodable →
            ∃ table table' ended ended', changed.FlushesTo later generation table ended ∧
              changed.FlushesTo reached generation table' ended' ∧
              table.descriptor = table'.descriptor ∧
              table.descriptor.generation = session.nextGeneration ∧
              ∀ name, ended.disk.file? (folder ++ [name]) = ended'.disk.file? (folder ++ [name]) := by
  obtain ⟨folder, housed⟩ := exists_isHoused started
  have housed := housed.undergoAll underwent
  obtain ⟨rfl, full, untouched⟩ := housed.flush_error failed counted
  have housed' := housed.untouched untouched
  obtain ⟨names, listed⟩ := Disk.exists_names untouched.located
  obtain ⟨folder', located, found⟩ := Disk.mem_names_iff listed
  rw [untouched.located] at located
  cases located
  refine ⟨rfl, housed.get_eq untouched, folder, names, untouched.located, listed, ?_, fun more => ?_⟩
  · intro name member read
    have there := (found name (Descriptor.isDots_of_generationOf? read)).1 member
    exact absurd (housed'.earlier name _ there read) (UInt64.lt_irrefl _)
  · obtain ⟨time, changed, plain, full', performed⟩ :=
      exists_performAll_writes housed.plain full more
    refine ⟨_, performed later, performed reached, fun generation counted' encodable => ?_⟩
    have changes := housed.withBuffer plain time
    have changes' := changes.untouched untouched
    have valid := validate_of_start started
    obtain ⟨plan, reader', ended', planned, written'⟩ :=
      changes.ready.exists_table valid plain full' encodable
    obtain ⟨plan', reader, ended, planned', written⟩ :=
      changes'.ready.exists_table valid plain full' encodable
    cases planned.symm.trans planned'
    obtain ⟨same, loaded⟩ := changes'.load_of_written planned written
    obtain ⟨same', loaded'⟩ := changes.load_of_written planned written'
    have flushed := (flush_of_written full' planned written).1 generation counted'
    have flushed' := (flush_of_written full' planned written').1 generation counted'
    obtain ⟨-, -, -, own⟩ := flushPlan_eq_ok planned
    refine ⟨reader, reader', ended, ended', ⟨flushed, loaded⟩, ⟨flushed', loaded'⟩,
      same.trans same'.symm, ?_, ?_⟩
    · rw [same, own]
    · exact changes.file?_eq_of_written untouched planned written' written

/-- Whether a flush failed in writing its table. -/
def failsInTable : Except SessionError (Option FlushSummary) → Bool
  | .error (.table _) => true
  | _ => false

theorem exists_of_failsInTable {outcome : Except SessionError (Option FlushSummary)}
    (fails : failsInTable outcome = true) : ∃ cause, outcome = .error (.table cause) := by
  unfold failsInTable at fails
  split at fails
  · exact ⟨_, rfl⟩
  · cases fails

/-- A medium on which the list of contents cannot get its final name. -/
def uncommitting : Medium where
  rename := fun component => if component = .contents then some .writeZero else none

/-- A session with a single write in its buffer. -/
def trialWritten : Session := trialStart.1.put 5 (.ofBytes [4]) "name" [1]

/-- A flush that could not commit is made up for behind a deletion, as if it had not been tried. -/
theorem flush_error_loses_nothing_trial :
    ∃ cause left folder table table' ended ended',
      trialWritten.flush uncommitting trialStart.2 = (.error (.table cause), trialWritten, left) ∧
      (trialWritten.delete 6 (.ofBytes [0])).FlushesTo left 2 table ended ∧
      (trialWritten.delete 6 (.ofBytes [0])).FlushesTo trialStart.2 2 table' ended' ∧
      table.descriptor.generation = 1 ∧
      ∀ name, ended.disk.file? (folder ++ [name]) = ended'.disk.file? (folder ++ [name]) := by
  have evaluated : (Session.start trialSettings ⟨.empty, []⟩).1.toOption.isSome = true ∧
      failsInTable (trialWritten.flush uncommitting trialStart.2).1 = true ∧
      trialWritten.nextGeneration = 1 ∧
      (trialWritten.delete 6 (.ofBytes [0])).IsEncodable := by decide +kernel
  obtain ⟨started, refused, first, encodable⟩ := evaluated
  have started : Session.start trialSettings ⟨.empty, []⟩ = (.ok trialStart.1, trialStart.2) :=
    Prod.ext (Except.eq_ok_getD started) rfl
  have underwent : trialStart.1.undergoAll trialStart.2 [.put 5 (.ofBytes [4]) "name" [1]] =
      (.ok trialWritten, trialStart.2) := rfl
  have counted : exactSum trialWritten.nextGeneration 1 = .ok 2 := by
    rw [first]
    rfl
  obtain ⟨⟨result, next, left⟩, failed⟩ :
      ∃ outcome, trialWritten.flush uncommitting trialStart.2 = outcome := ⟨_, rfl⟩
  rw [failed] at refused
  obtain ⟨cause, rfl⟩ := exists_of_failsInTable refused
  obtain ⟨rfl, -, folder, names, -, -, -, retried⟩ :=
    flush_error_loses_nothing started underwent failed nofun
  obtain ⟨changed, performed, -, flushes⟩ := retried [.delete 6 (.ofBytes [0])]
  cases performed
  obtain ⟨table, table', ended, ended', flushes, flushes', -, own, files⟩ :=
    flushes 2 counted encodable
  exact ⟨cause, left, folder, table, table', ended, ended', failed, flushes, flushes',
    own.trans first, files⟩

/-- In the last generation a flush without faults commits its table but overflows, and keeps the
buffer. -/
theorem IsHoused.flush_of_last (housed : session.IsHoused settings folder store.disk)
    (valid : settings.validate = .ok ()) (full : session.memtable.isEmpty = false)
    (encodable : session.IsEncodable) {cause : Overflow}
    (counted : exactSum session.nextGeneration 1 = .error cause) :
    ∃ table later, session.flush .sound store = (.error (.overflow cause),
        { session with tables := session.tables ++ [table] }, later) ∧
      Reader.load later.disk table.descriptor = .ok table := by
  obtain ⟨plan, reader, later, planned, written⟩ :=
    housed.ready.exists_table valid housed.plain full encodable
  exact ⟨reader, later, (flush_of_written full planned written).2 cause counted,
    (housed.load_of_written planned written).2⟩

/-- A disk on which the folder of the trial has a name of the generation before the last. -/
def lastButOne : Disk :=
  Disk.empty.applyAll [.createFolder ["tables"],
    .create ["tables", "nb-18446744073709551614-big-Data.db"] 0]

/-- A session of the last generation. -/
def lastStart : Session × Store :=
  ((Session.start trialSettings ⟨lastButOne, []⟩).1.toOption.getD default,
    (Session.start trialSettings ⟨lastButOne, []⟩).2)

/-- The session with a single write in its buffer. -/
def lastWritten : Session := lastStart.1.put 5 (.ofBytes [4]) "name" [1]

/-- A medium on which a folder is in the way of the data. -/
def obstructed : Medium := .refusing (fun component => component = .data) (.system .isFolder)

/-- In the last generation a flush that could not begin cannot be made up for. -/
theorem flush_overflows_behind_error :
    Session.start trialSettings ⟨lastButOne, []⟩ = (.ok lastStart.1, lastStart.2) ∧
      lastWritten.IsEncodable ∧
      ∃ cause left table later,
        lastWritten.flush obstructed lastStart.2 = (.error (.table cause), lastWritten, left) ∧
        lastWritten.flush .sound left = (.error (.overflow .addition),
          { lastWritten with tables := lastWritten.tables ++ [table] }, later) := by
  have evaluated : (Session.start trialSettings ⟨lastButOne, []⟩).1.toOption.isSome = true ∧
      failsInTable (lastWritten.flush obstructed lastStart.2).1 = true ∧
      lastWritten.nextGeneration = 18446744073709551615 ∧
      lastWritten.IsEncodable := by decide +kernel
  obtain ⟨started, refused, last, encodable⟩ := evaluated
  have started : Session.start trialSettings ⟨lastButOne, []⟩ = (.ok lastStart.1, lastStart.2) :=
    Prod.ext (Except.eq_ok_getD started) rfl
  have counted : exactSum lastWritten.nextGeneration 1 = .error .addition := by
    rw [last]
    rfl
  obtain ⟨folder, housed⟩ := exists_isHoused started
  have written : lastStart.1.undergo lastStart.2 (.put 5 (.ofBytes [4]) "name" [1]) =
      (.ok lastWritten, lastStart.2) := rfl
  have housed := housed.undergo written
  obtain ⟨⟨result, next, left⟩, failed⟩ :
      ∃ outcome, lastWritten.flush obstructed lastStart.2 = outcome := ⟨_, rfl⟩
  rw [failed] at refused
  obtain ⟨cause, rfl⟩ := exists_of_failsInTable refused
  obtain ⟨rfl, full, untouched⟩ := housed.flush_error failed nofun
  obtain ⟨table, later, flushed, -⟩ :=
    (housed.untouched untouched).flush_of_last (validate_of_start started) full encodable counted
  exact ⟨started, encodable, cause, left, table, later, failed, flushed⟩

end Session

end SortedTable

import SortedTable.Proofs.Session.Restart
import SortedTable.Proofs.Writer.Progress

namespace SortedTable

/-- A plain buffer that can be encoded becomes a table where nothing has a name of the table. -/
theorem Memtable.exists_flush {memtable : Memtable} {plan : WriterPlan} {store : Store} {folder : Path}
    {filter : Filter} {encoded : List Bytes} (sound : plan.medium = .sound)
    (texts : ∀ component, Path.IsText (plan.descriptor.pathOf false component))
    (valid : plan.settings.validate = .ok ())
    (located : store.disk.locate plan.descriptor.directory = .ok (folder, .folder))
    (vacant : plan.descriptor.IsVacant store.disk)
    (sized : Filter.forTable (UInt64.ofNat memtable.size) plan.settings.falsePositiveChance =
      .ok filter)
    (plain : memtable.IsPlain) (full : memtable.isEmpty = false)
    (encodes : memtable.toList.mapM Partition.encode = .ok encoded)
    (room : encoded.flatten.length ≤ Stage.maxFileBytes) :
    ∃ reader later, memtable.flush plan store = (.ok reader, later) := by
  have nothing : memtable.toList ≠ [] := by
    intro nothing
    rw [toList, List.map_eq_nil_iff] at nothing
    rw [Memtable.isEmpty, ← Std.TreeMap.isEmpty_toList, nothing] at full
    cases full
  have sound' : (memtable.planOf plan).medium = .sound := sound
  obtain ⟨writer, begun, last, middle, reader, later, built, all, finished⟩ :=
    Writer.exists_table sound' texts valid located vacant sized nothing
      (Except.mapM_eq_ok_iff.1 encodes) (fun _ => plain.isEmpty) (fun _ => plain.length_elements_le)
      memtable.pairwise_keys room
  refine ⟨reader, later, ?_⟩
  unfold Memtable.flush
  change Writer.build { plan with expected := UInt64.ofNat memtable.size } store = _ at built
  rw [full, if_neg Bool.false_ne_true, built]
  dsimp only
  rw [all]
  exact finished

namespace Session

variable {settings : Settings} {folder : Path} {session : Session} {store : Store}

/-- The buffer of a session can be written to its next table and read there. -/
structure IsWritable (session : Session) : Prop where
  texts : ∀ plan, session.flushPlan .sound = .ok plan →
    ∀ component, Path.IsText (plan.descriptor.pathOf false component)
  sized : ∃ filter, Filter.forTable (UInt64.ofNat session.memtable.size)
    session.settings.falsePositiveChance = .ok filter
  encodes : ∃ encoded, session.memtable.toList.mapM Partition.encode = .ok encoded ∧
    encoded.flatten.length ≤ Stage.maxFileBytes
  units : ∀ partition ∈ session.memtable.toList, partition.UnitsFit
  further : ∃ generation, exactSum session.nextGeneration 1 = .ok generation

/-- With valid settings there is a plan for the next table. -/
theorem exists_flushPlan (valid : session.settings.validate = .ok ()) (medium : Medium) :
    ∃ plan, session.flushPlan medium = .ok plan := by
  have known : (Version.ofName? session.settings.formatVersion).isNone = false := by
    unfold Settings.validate at valid
    split at valid
    · cases valid
    · split at valid
      · cases valid
      · split at valid
        · cases valid
        · rename_i known
          exact Bool.eq_false_iff.2 known
  unfold flushPlan Descriptor.ofSettings
  cases found : Version.ofName? session.settings.formatVersion with
  | none =>
      rw [found] at known
      cases known
  | some version => exact ⟨_, rfl⟩

/-- The buffer of a session can be encoded to its next table. -/
structure IsEncodable (session : Session) : Prop where
  texts : ∀ plan, session.flushPlan .sound = .ok plan →
    ∀ component, Path.IsText (plan.descriptor.pathOf false component)
  sized : ∃ filter, Filter.forTable (UInt64.ofNat session.memtable.size)
    session.settings.falsePositiveChance = .ok filter
  encodes : ∃ encoded, session.memtable.toList.mapM Partition.encode = .ok encoded ∧
    encoded.flatten.length ≤ Stage.maxFileBytes

theorem isEncodable_iff : session.IsEncodable ↔
    (session.flushPlan .sound).toOption.all (fun plan => decide (∀ component ∈ Component.all,
        Path.IsText (plan.descriptor.pathOf false component))) = true ∧
      (Filter.forTable (UInt64.ofNat session.memtable.size)
        session.settings.falsePositiveChance).toOption.isSome = true ∧
      (session.memtable.toList.mapM Partition.encode).toOption.any
        (fun encoded => decide (encoded.flatten.length ≤ Stage.maxFileBytes)) = true := by
  simp only [Option.all_eq_true, Option.any_eq_true, Option.isSome_iff_exists, decide_eq_true_iff,
    Except.toOption_eq_some_iff]
  have every (component : Component) : component ∈ Component.all := by
    cases component <;> simp [Component.all]
  exact ⟨fun ⟨texts, sized, encodes⟩ => ⟨fun plan planned component _ => texts plan planned component,
      sized, encodes⟩, fun ⟨texts, sized, encodes⟩ =>
    ⟨fun plan planned component => texts plan planned component (every component), sized, encodes⟩⟩

instance (session : Session) : Decidable session.IsEncodable := decidable_of_iff' _ isEncodable_iff

theorem IsWritable.isEncodable (writable : session.IsWritable) : session.IsEncodable :=
  ⟨writable.texts, writable.sized, writable.encodes⟩

/-- On a medium without faults a buffer that can be encoded becomes the next table. -/
theorem IsReady.exists_table (ready : session.IsReady settings folder store.disk)
    (valid : settings.validate = .ok ()) (plain : session.memtable.IsPlain)
    (full : session.memtable.isEmpty = false) (encodable : session.IsEncodable) :
    ∃ plan reader later, session.flushPlan .sound = .ok plan ∧
      session.memtable.flush plan store = (.ok reader, later) := by
  obtain ⟨plan, planned⟩ := exists_flushPlan (by rw [ready.same]; exact valid) .sound
  obtain ⟨still, resides, vacant⟩ := ready.resides planned
  obtain ⟨given, sound, directory, own⟩ := flushPlan_eq_ok planned
  obtain ⟨filter, sized⟩ := encodable.sized
  obtain ⟨encoded, encodes, room⟩ := encodable.encodes
  obtain ⟨reader, later, written⟩ := Memtable.exists_flush sound (encodable.texts plan planned)
    (by rw [given, ready.same]; exact valid) (by rw [directory, ready.same]; exact ready.located)
    vacant (by rw [given]; exact sized) plain full encodes room
  exact ⟨plan, reader, later, planned, written⟩

/-- A flush whose table was written goes on to the next generation, if there is one. -/
theorem flush_of_written {medium : Medium} {plan : WriterPlan} {reader : Reader} {later : Store}
    (full : session.memtable.isEmpty = false) (planned : session.flushPlan medium = .ok plan)
    (written : session.memtable.flush plan store = (.ok reader, later)) :
    (∀ generation, exactSum session.nextGeneration 1 = .ok generation →
      ∃ summary, session.flush medium store = (.ok (some summary),
        { session with
          tables := session.tables ++ [reader]
          nextGeneration := generation
          memtable := {} }, later)) ∧
      ∀ cause, exactSum session.nextGeneration 1 = .error cause →
        session.flush medium store = (.error (.overflow cause),
          { session with tables := session.tables ++ [reader] }, later) := by
  unfold Session.flush
  rw [full, if_neg Bool.false_ne_true, planned]
  dsimp only
  rw [written]
  dsimp only
  unfold Session.advance
  dsimp only
  refine ⟨fun generation counted => ?_, fun cause counted => ?_⟩
  · rw [counted]
    exact ⟨_, rfl⟩
  · rw [counted]

theorem IsWritable.fits (writable : session.memtable.isEmpty = false → session.IsWritable) :
    session.FlushFits .sound where
  keeps _ := rfl
  units partition member := by
    apply (writable _).units partition member
    cases pending : session.memtable.isEmpty with
    | false => rfl
    | true =>
        rw [Memtable.isEmpty, ← Std.TreeMap.isEmpty_toList, List.isEmpty_iff] at pending
        rw [Memtable.toList, pending] at member
        cases member

/-- On a medium without faults a flush succeeds unless the buffer holds what cannot be written. -/
theorem IsCurrent.exists_flush (current : session.IsCurrent settings folder store.disk)
    (valid : settings.validate = .ok ())
    (writable : session.memtable.isEmpty = false → session.IsWritable) :
    ∃ summary next later, session.flush .sound store = (.ok summary, next, later) := by
  cases pending : session.memtable.isEmpty with
  | true => exact ⟨none, session, store, by rw [Session.flush, if_pos pending]⟩
  | false =>
      have writable := writable pending
      obtain ⟨generation, counted⟩ := writable.further
      obtain ⟨plan, reader, later, planned, written⟩ :=
        current.ready.exists_table valid current.plain pending writable.isEncodable
      obtain ⟨summary, flushed⟩ := (flush_of_written pending planned written).1 generation counted
      exact ⟨_, _, later, flushed⟩

/-- A session that is started again knows what the session knew, but not what was in its buffer. -/
def LosesBuffer (session : Session) (disk : Disk) (store : Store) : Prop :=
  ∃ reopened, Session.start session.settings store = (.ok reopened, store) ∧
    ∀ key, reopened.reading store.disk key * .ok (session.memtable.contents key).standing =
      session.reading disk key

/-- A session that is started again reads and lists the same, without anything in its buffer. -/
def Survives (session : Session) (disk : Disk) (store : Store) : Prop :=
  ∃ reopened, Session.start session.settings store = (.ok reopened, store) ∧
    reopened.memtable.isEmpty = true ∧ reopened.keys = session.keys ∧
    ∀ key, ∃ cells, session.get disk key = .ok cells ∧ reopened.get store.disk key = .ok cells

/-- A session that stops without a flush loses its buffer. -/
theorem IsCurrent.losesBuffer (current : session.IsCurrent settings folder store.disk)
    (valid : settings.validate = .ok ()) : session.LosesBuffer store.disk store := by
  have valid' : session.settings.validate = .ok () := by rw [current.same]; exact valid
  have shared : session.settings.dataDir = settings.dataDir := by rw [current.same]
  obtain ⟨reopened, started, current', empty⟩ := current.restart valid' shared
  refine ⟨reopened, started, fun key => ?_⟩
  have known : reopened.reading store.disk key =
      (session.tables.map fun table => table.reading store.disk key).prod := by
    rw [Session.reading_eq current'.plain, Memtable.contents_of_isEmpty key empty,
      Contents.standing_empty, current.prod_reading current' shared key]
    exact mul_one _
  rw [known, Session.reading_eq current.plain]

/-- So does one whose flush fails, unless its table is one of the last generation. -/
theorem IsCurrent.losesBuffer_of_flush (current : session.IsCurrent settings folder store.disk)
    (valid : settings.validate = .ok ()) {medium : Medium} {error : SessionError} {next : Session}
    {later : Store} (fits : session.FlushFits medium)
    (failed : session.flush medium store = (.error error, next, later))
    (counted : ∀ cause, error ≠ .overflow cause) : session.LosesBuffer store.disk later := by
  rcases current.flush_error fits failed with ⟨-, current', reading⟩ | ⟨⟨cause, overflow⟩, -⟩
  · obtain ⟨reopened, started, known⟩ := current'.losesBuffer valid
    exact ⟨reopened, started, fun key => (known key).trans (reading key)⟩
  · exact absurd overflow (counted cause)

/-- A session in which every key can be read survives a flush that succeeds. -/
theorem IsReadable.survives (readable : session.IsReadable settings folder store.disk)
    (valid : settings.validate = .ok ()) {medium : Medium} {summary : Option FlushSummary}
    {next : Session} {later : Store} (fits : session.FlushFits medium)
    (flushed : session.flush medium store = (.ok summary, next, later)) :
    session.Survives store.disk later := by
  have valid' : session.settings.validate = .ok () := by rw [readable.same]; exact valid
  have shared : session.settings.dataDir = settings.dataDir := by rw [readable.same]
  obtain ⟨current, -, empty, reading, keys⟩ := readable.toIsCurrent.flush fits flushed
  obtain ⟨reopened, started, current', empty'⟩ := current.restart valid' shared
  obtain ⟨reading', keys'⟩ := current.congr current' shared empty empty'
  refine ⟨reopened, started, empty', keys_congr fun key => (keys' key).trans (keys key), fun key => ?_⟩
  obtain ⟨standing, known⟩ := readable.known key
  obtain ⟨cells, got, -⟩ := get_of_reading known
  have same : reopened.reading later.disk key = session.reading store.disk key :=
    (reading' key).trans (reading key)
  exact ⟨cells, got, (get_congr same).trans got⟩

end Session

end SortedTable

import SortedTable.Proofs.Disk.Replace
import SortedTable.Proofs.Session.Failure

namespace SortedTable

/-- A file that can be opened has bytes. -/
theorem Disk.lt_size_of_find {disk : Disk} {text : String} {id : Nat}
    (found : disk.find text = .ok (.file id)) : id < disk.contents.size := by
  obtain ⟨folder, name, -, looked⟩ := place_of_find found
  exact lt_size_of_node? (lookup_eq_ok_iff.1 looked).2

namespace Reader

variable {reader : Reader} {disk later : Disk}

/-- The files of an open table have bytes, also when they have no names any more. -/
def IsHeld (reader : Reader) (disk : Disk) : Prop :=
  ∀ node ∈ [reader.index, reader.data], ∀ id, node = .file id → id < disk.contents.size

theorem IsOpenOn.isHeld (opened : reader.IsOpenOn disk) : reader.IsHeld disk := by
  rintro node member id rfl
  simp only [List.mem_cons, List.not_mem_nil, or_false] at member
  rcases member with own | own
  · exact Disk.lt_size_of_find (liftIo_eq_ok_iff.1 (opened.index.trans (congrArg _ own.symm)))
  · exact Disk.lt_size_of_find (liftIo_eq_ok_iff.1 (opened.data.trans (congrArg _ own.symm)))

theorem IsHeld.grown (held : reader.IsHeld disk)
    (grown : disk.contents.size ≤ later.contents.size) : reader.IsHeld later :=
  fun node member id same => Nat.lt_of_lt_of_le (held node member id same) grown

/-- A table whose files keep their bytes finds what it found. -/
theorem IsHeld.partition?_eq (held : reader.IsHeld disk)
    (kept : ∀ id, id < disk.contents.size → later.content id = disk.content id) (key : Key) :
    reader.partition? later key = reader.partition? disk key := by
  have read (node : Node) (member : node ∈ [reader.index, reader.data]) :
      later.read node = disk.read node := by
    cases node with
    | folder => rfl
    | file id => exact congrArg Except.ok (kept id (held _ member id rfl))
  exact partition?_congr (read _ (by simp)) (read _ (by simp)) key

end Reader

namespace Session

variable {settings : Settings} {folder : Path} {session next last : Session} {disk : Disk}
  {store later : Store} {medium : Medium}

/-- The folder is as it was: every name leads where it led, and every file has the bytes that it had. -/
structure Untouched (settings : Settings) (folder : Path) (disk later : Disk) : Prop where
  located : later.locate settings.dataDir = .ok (folder, .folder)
  nodes : ∀ name, later.node? (folder ++ [name]) = disk.node? (folder ++ [name])
  kept : ∀ id, id < disk.contents.size → later.content id = disk.content id
  grown : disk.contents.size ≤ later.contents.size

theorem Untouched.refl (located : disk.locate settings.dataDir = .ok (folder, .folder)) :
    Untouched settings folder disk disk :=
  ⟨located, fun _ => rfl, fun _ _ => rfl, Nat.le_refl _⟩

theorem Untouched.file? {after : Disk} (untouched : Untouched settings folder disk after)
    (name : String) : after.file? (folder ++ [name]) = disk.file? (folder ++ [name]) := by
  rw [Disk.file?, Disk.file?, untouched.nodes]
  rcases held : disk.node? (folder ++ [name]) with - | - | id
  · rfl
  · rfl
  · exact congrArg some (untouched.kept id (Disk.lt_size_of_node? held))

/-- The session of a folder: all names in the folder are of generations that were given out, the files
of its open tables have bytes, and its buffer is plain. -/
structure IsHoused (settings : Settings) (folder : Path) (session : Session) (disk : Disk) : Prop where
  same : session.settings = settings
  located : disk.locate settings.dataDir = .ok (folder, .folder)
  plain : session.memtable.IsPlain
  held : ∀ table ∈ session.tables, table.IsHeld disk
  earlier : ∀ name generation, disk.node? (folder ++ [name]) ≠ none →
    Descriptor.generationOf? name = some generation → generation < session.nextGeneration

/-- Every session that is started is one of a folder. -/
theorem exists_isHoused (started : Session.start settings store = (.ok session, later)) :
    ∃ folder, session.IsHoused settings folder later.disk := by
  obtain ⟨names, tables, next, listed, rfl, -, loaded, counted⟩ := opened_of_start started
  obtain ⟨folder, located, found⟩ := Disk.mem_names_iff listed
  refine ⟨folder, rfl, located, Memtable.isPlain_empty, fun table member => ?_, ?_⟩
  · exact (Reader.load_eq_ok_iff.1 (loaded table member)).2.2.2.2.isHeld
  · intro name generation there read
    have proper := Descriptor.isDots_of_generationOf? read
    exact Descriptor.lt_of_nextGeneration counted ((found name proper).2 there) read

namespace IsHoused

/-- No name of a generation to come is taken. -/
theorem ready (housed : session.IsHoused settings folder disk) :
    session.IsReady settings folder disk where
  same := housed.same
  located := housed.located
  vacant descriptor directory further isFinal component := by
    by_contra taken
    have given := housed.earlier _ _ taken (descriptor.generationOf?_nameOf isFinal component)
    exact absurd given (UInt64.not_lt.2 further)

/-- Another buffer changes nothing. -/
theorem withBuffer (housed : session.IsHoused settings folder disk) {memtable : Memtable}
    (plain : memtable.IsPlain) (time : Int64) :
    IsHoused settings folder { session with lastTimestamp := time, memtable } disk :=
  ⟨housed.same, housed.located, plain, housed.held, housed.earlier⟩

theorem untouched {after : Disk} (housed : session.IsHoused settings folder disk)
    (untouched : Untouched settings folder disk after) :
    session.IsHoused settings folder after where
  same := housed.same
  located := untouched.located
  plain := housed.plain
  held table member := (housed.held table member).grown untouched.grown
  earlier name generation there :=
    housed.earlier name generation (by rwa [← untouched.nodes])

/-- Every key is read as before where the folder was not touched. -/
theorem get_eq {after : Disk} (housed : session.IsHoused settings folder disk)
    (untouched : Untouched settings folder disk after) (key : Key) :
    session.get after key = session.get disk key := by
  have stored : (session.tables.map fun table => table.reading after key) =
      session.tables.map fun table => table.reading disk key := by
    refine List.map_congr_left fun table member => ?_
    rw [Reader.reading, (housed.held table member).partition?_eq untouched.kept, ← Reader.reading]
  refine get_congr ?_
  rw [reading_eq housed.plain, reading_eq housed.plain, stored]

/-- A flush that fails touches nothing. -/
theorem flush_error (housed : session.IsHoused settings folder store.disk) {error : SessionError}
    (failed : session.flush medium store = (.error error, next, later))
    (counted : ∀ cause, error ≠ .overflow cause) :
    next = session ∧ session.memtable.isEmpty = false ∧
      Untouched settings folder store.disk later.disk := by
  have full : session.memtable.isEmpty = false := by
    refine Bool.eq_false_iff.2 fun empty => ?_
    rw [Session.flush, if_pos empty] at failed
    cases failed
  rcases flush_eq_error failed with ⟨rfl, rfl | ⟨plan, cause, -, planned, written⟩⟩ |
    ⟨plan, reader, cause, planned, written, -, overflow⟩
  · exact ⟨rfl, full, .refl housed.located⟩
  · obtain ⟨still, resides, vacant⟩ := housed.ready.resides planned
    obtain ⟨spares, empty⟩ := Memtable.spares_of_flush_error full still vacant resides written
    have bare := vacant folder resides
    have stays : plan.descriptor.ResidesIn later.disk folder :=
      resides.of_isOpen fun _ => spares.isOpen bare
    refine ⟨rfl, full, Disk.locate_of_isOpen (fun _ => spares.isOpen bare) housed.located, ?_,
      spares.kept, spares.grown⟩
    intro name
    by_cases owned : plan.descriptor.Owns folder (folder ++ [name])
    · obtain ⟨isFinal, component, rfl⟩ := Descriptor.exists_nameOf_of_owns owned
      rw [empty folder stays, bare]
    · exact spares.nodes _ owned
  · exact absurd overflow (counted cause)

/-- A flush that succeeds gives out a generation. -/
theorem flush (housed : session.IsHoused settings folder store.disk) {summary : Option FlushSummary}
    (flushed : session.flush medium store = (.ok summary, next, later)) :
    next.IsHoused settings folder later.disk := by
  rcases flush_eq_ok flushed with ⟨-, rfl, rfl⟩ | ⟨plan, reader, generation, planned, written, counted,
    rfl⟩
  · exact housed
  obtain ⟨still, resides, vacant⟩ := housed.ready.resides planned
  obtain ⟨-, rfl, directory, own⟩ := flushPlan_eq_ok planned
  have bare := vacant folder resides
  rw [← still] at vacant resides
  have spares := Memtable.spares_of_flush vacant resides written
  have opened := (Memtable.opens_of_flush vacant written).2
  rw [still] at spares
  have spared : session.Spared folder store.disk plan.descriptor later.disk :=
    ⟨directory, own, bare, spares⟩
  have above := toNat_of_exactSum counted
  have one : (1 : UInt64).toNat = 1 := rfl
  refine ⟨housed.same, Disk.locate_of_isOpen (fun _ => spares.isOpen bare) housed.located,
    Memtable.isPlain_empty, fun table member => ?_, fun name given there read => ?_⟩
  · rcases List.mem_append.1 member with member | member
    · exact (housed.held table member).grown spares.grown
    · rw [List.mem_singleton.1 member]
      exact opened.isHeld
  · rw [UInt64.lt_iff_toNat_lt]
    dsimp only
    rcases spared.nameOf_or_there there with ⟨isFinal, component, rfl⟩ | there
    · rw [Descriptor.generationOf?_nameOf] at read
      obtain rfl := Option.some.inj read
      rw [own]
      omega
    · have before := UInt64.lt_iff_toNat_lt.1 (housed.earlier name given there read)
      omega

/-- A session stays one of its folder over every action, also if a flush fails. -/
theorem undergo (housed : session.IsHoused settings folder store.disk) {action : Action}
    (underwent : session.undergo store action = (.ok next, later)) :
    next.IsHoused settings folder later.disk := by
  cases action with
  | put now key column value =>
      cases underwent
      exact housed.withBuffer (housed.plain.put key _) _
  | putStatic now key column value =>
      cases underwent
      exact housed.withBuffer (housed.plain.putStatic key _) _
  | delete now key =>
      cases underwent
      exact housed.withBuffer (housed.plain.deletePartition key (isLive_secondsOf _)) _
  | flush medium =>
      rcases undergo_flush_eq_ok underwent with ⟨summary, flushed⟩ | ⟨error, counted, failed⟩
      · exact housed.flush flushed
      · obtain ⟨rfl, -, untouched⟩ := housed.flush_error failed counted
        exact housed.untouched untouched

theorem undergoAll (housed : session.IsHoused settings folder store.disk) {actions : List Action}
    (underwent : session.undergoAll store actions = (.ok last, later)) :
    last.IsHoused settings folder later.disk := by
  induction actions generalizing session store with
  | nil =>
      cases underwent
      exact housed
  | cons action rest ih =>
      rw [Session.undergoAll] at underwent
      split at underwent
      · cases underwent
      · rename_i first
        exact ih (housed.undergo first) underwent

end IsHoused

end Session

end SortedTable

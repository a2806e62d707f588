import Mathlib.Data.List.Pairwise
import Mathlib.Data.Set.Function
import SortedTable.Proofs.Session.Flush
import SortedTable.Proofs.Session.Standing

namespace SortedTable

/-- The list of contents of a table that is opened lies under its final name. -/
theorem Reader.contents_of_load {disk : Disk} {descriptor : Descriptor} {table : Reader}
    {folder : Path} (loaded : Reader.load disk descriptor = .ok table)
    (resides : descriptor.ResidesIn disk folder) :
    disk.node? (folder ++ [descriptor.nameOf true .contents]) ≠ none := by
  obtain ⟨-, committed, -⟩ := Reader.load_eq_ok_iff.1 loaded
  obtain ⟨node, found⟩ := Option.isSome_iff_exists.1 committed
  rw [Except.toOption_eq_some_iff, ← Descriptor.pathOf_true] at found
  rw [Descriptor.node?_of_find resides found]
  exact nofun

/-- The order of tables by their generations, in which a table may be repeated. -/
def Reader.IsNotAfter (older newer : Reader) : Prop :=
  older = newer ∨ older.descriptor.generation < newer.descriptor.generation

theorem Reader.IsNotAfter.antisymm (left right : Reader) (order : left.IsNotAfter right)
    (order' : right.IsNotAfter left) : left = right := by
  rcases order with same | below
  · exact same
  · rcases order' with same | above
    · exact same.symm
    · exact absurd above (UInt64.not_lt.2 (UInt64.le_of_lt below))

namespace Session

variable {settings : Settings} {folder : Path} {session next : Session} {disk : Disk}
  {store later : Store}

/-- The session on a folder: its tables are the committed ones that lie there, and its buffer is
plain. -/
structure IsCurrent (settings : Settings) (folder : Path) (session : Session) (disk : Disk) : Prop where
  same : session.settings = settings
  located : disk.locate settings.dataDir = .ok (folder, .folder)
  plain : session.memtable.IsPlain
  loaded : ∀ table ∈ session.tables, table.descriptor.directory = settings.dataDir ∧
    Reader.load disk table.descriptor = .ok table
  ordered : session.tables.Pairwise Reader.IsNotAfter
  listed : ∀ name descriptor, disk.node? (folder ++ [name]) ≠ none →
    Descriptor.ofFileName? settings.dataDir name = some (descriptor, .contents) →
    ∃ table ∈ session.tables, table.descriptor = descriptor
  earlier : ∀ name generation, disk.node? (folder ++ [name]) ≠ none →
    Descriptor.generationOf? name = some generation → generation < session.nextGeneration

namespace IsCurrent

theorem resides (current : session.IsCurrent settings folder disk) {descriptor : Descriptor}
    (directory : descriptor.directory = settings.dataDir) : descriptor.ResidesIn disk folder := by
  have located := current.located
  rw [← directory] at located
  exact Disk.enter_of_locate located

/-- The list of contents of every table lies in the folder under its final name. -/
theorem committed (current : session.IsCurrent settings folder disk) {table : Reader}
    (member : table ∈ session.tables) :
    disk.node? (folder ++ [table.descriptor.nameOf true .contents]) ≠ none := by
  obtain ⟨directory, loaded⟩ := current.loaded table member
  exact Reader.contents_of_load loaded (current.resides directory)

theorem generation_lt (current : session.IsCurrent settings folder disk) {table : Reader}
    (member : table ∈ session.tables) :
    table.descriptor.generation < session.nextGeneration :=
  current.earlier _ _ (current.committed member) (Descriptor.generationOf?_nameOf _ _ _)

/-- No name of a generation to come is taken. -/
theorem ready (current : session.IsCurrent settings folder disk) :
    session.IsReady settings folder disk where
  same := current.same
  located := current.located
  vacant descriptor directory further isFinal component := by
    by_contra taken
    have given := current.earlier _ _ taken (descriptor.generationOf?_nameOf isFinal component)
    exact absurd given (UInt64.not_lt.2 further)

/-- Tables of one generation are the same. -/
theorem eq_of_generation (current : session.IsCurrent settings folder disk) {left right : Reader}
    (member : left ∈ session.tables) (member' : right ∈ session.tables)
    (same : left.descriptor.generation = right.descriptor.generation) : left = right := by
  have : Std.Symm fun older newer : Reader =>
      older.descriptor.generation = newer.descriptor.generation → older = newer :=
    ⟨fun _ _ equal same => (equal same.symm).symm⟩
  have apart : session.tables.Pairwise fun older newer =>
      older.descriptor.generation = newer.descriptor.generation → older = newer := by
    refine current.ordered.imp fun order equal => ?_
    rcases order with same | below
    · exact same
    · rw [equal] at below
      exact absurd below (UInt64.lt_irrefl _)
  exact apart.forall_of_forall (fun _ _ _ => rfl) member member' same

/-- Two sessions on one folder have the same tables. -/
theorem mem_tables {other : Session} {settings' : Settings}
    (current : session.IsCurrent settings folder disk)
    (current' : other.IsCurrent settings' folder disk) (shared : settings'.dataDir = settings.dataDir)
    {table : Reader} (member : table ∈ session.tables) : table ∈ other.tables := by
  obtain ⟨directory, loaded⟩ := current.loaded table member
  have read : Descriptor.ofFileName? settings'.dataDir (table.descriptor.nameOf true .contents) =
      some (table.descriptor, .contents) := by
    rw [shared, ← directory]
    exact table.descriptor.ofFileName?_of_fileName .contents
  obtain ⟨again, member', same⟩ := current'.listed _ _ (current.committed member) read
  have loaded' := (current'.loaded again member').2
  rw [same, loaded] at loaded'
  rwa [Except.ok.inj loaded']

/-- The tables of two sessions on one folder know the same. -/
theorem prod_reading {other : Session} {settings' : Settings}
    (current : session.IsCurrent settings folder disk)
    (current' : other.IsCurrent settings' folder disk) (shared : settings'.dataDir = settings.dataDir)
    (key : Key) : (other.tables.map fun table => table.reading disk key).prod =
      (session.tables.map fun table => table.reading disk key).prod :=
  prod_map_eq_of_mem_iff Reader.IsNotAfter.antisymm (fun table => table.reading disk key)
    (fun table => (table.reading disk key).isIdempotentElem) current'.ordered current.ordered
    fun _ => ⟨current'.mem_tables current shared.symm, current.mem_tables current' shared⟩

/-- Two sessions on one folder without anything in their buffers know the same and list the same keys. -/
theorem congr {other : Session} {settings' : Settings}
    (current : session.IsCurrent settings folder disk)
    (current' : other.IsCurrent settings' folder disk) (shared : settings'.dataDir = settings.dataDir)
    (empty : session.memtable.isEmpty = true) (empty' : other.memtable.isEmpty = true) :
    (∀ key, other.reading disk key = session.reading disk key) ∧
      ∀ key, key ∈ other.keys ↔ key ∈ session.keys := by
  constructor
  · intro key
    rw [Session.reading_eq current.plain, Session.reading_eq current'.plain,
      Memtable.contents_of_isEmpty key empty, Memtable.contents_of_isEmpty key empty',
      current.prod_reading current' shared key]
  · intro key
    have tables (table : Reader) : table ∈ other.tables ↔ table ∈ session.tables :=
      ⟨current'.mem_tables current shared.symm, current.mem_tables current' shared⟩
    rw [Session.mem_keys_iff, Session.mem_keys_iff,
      or_iff_left (Std.TreeMap.not_mem_of_isEmpty empty),
      or_iff_left (Std.TreeMap.not_mem_of_isEmpty empty')]
    simp only [List.mem_flatMap, tables]

end IsCurrent

/-- A folder is opened if all its committed tables are and there is a further generation. -/
theorem exists_ofDisk {names : List String} (listed : disk.names settings.dataDir = .ok names)
    (loaded : ∀ descriptor ∈ Descriptor.committed settings.dataDir names,
      ∃ table, Reader.load disk descriptor = .ok table)
    (counted : ∃ next, Descriptor.nextGeneration names = .ok next) :
    ∃ session, ofDisk settings disk = .ok session := by
  obtain ⟨tables, loaded⟩ : ∃ tables,
      (Descriptor.committed settings.dataDir names).mapM (openTable disk) = .ok tables :=
    Except.exists_mapM_eq_ok fun descriptor member =>
      (loaded descriptor member).imp fun _ loaded => Except.mapError_eq_ok_iff.2 loaded
  obtain ⟨next, counted⟩ := counted
  exact ⟨{ settings, tables, nextGeneration := next }, Except.bind_eq_ok_iff.2
    ⟨names, Except.mapError_eq_ok_iff.2 listed, Except.bind_eq_ok_iff.2
      ⟨tables, loaded, Except.bind_eq_ok_iff.2 ⟨next, Except.mapError_eq_ok_iff.2 counted, rfl⟩⟩⟩⟩

/-- A session opened on a folder with no two tables of one generation is the one on that folder. -/
theorem isCurrent_of_ofDisk (opened : ofDisk settings disk = .ok session) {names : List String}
    (listed : disk.names settings.dataDir = .ok names)
    (distinct : Set.InjOn Descriptor.generation
      {table | table ∈ Descriptor.committed settings.dataDir names}) :
    ∃ folder, session.IsCurrent settings folder disk ∧ session.memtable.isEmpty = true := by
  obtain ⟨folder, located, found⟩ := Disk.mem_names_iff listed
  obtain ⟨tables, next, rfl, own, loaded, counted⟩ := ofDisk_eq_ok opened listed
  have among {table : Reader} (member : table ∈ tables) :
      table.descriptor ∈ Descriptor.committed settings.dataDir names := by
    rw [← own]
    exact List.mem_map_of_mem member
  refine ⟨folder, ⟨rfl, located, Memtable.isPlain_empty,
    fun table member => ⟨?_, loaded table member⟩, ?_, ?_, ?_⟩, Std.TreeMap.isEmpty_emptyc⟩
  · obtain ⟨name, -, read⟩ := Descriptor.mem_committed_iff.1 (among member)
    exact Descriptor.directory_of_ofFileName? read
  · have ordered := Descriptor.pairwise_committed settings.dataDir names
    rw [← own, List.pairwise_map] at ordered
    refine ordered.imp_of_mem fun {older newer} member member' order => ?_
    by_cases same : older.descriptor.generation = newer.descriptor.generation
    · have loaded' := loaded newer member'
      rw [← distinct (among member) (among member') same, loaded older member] at loaded'
      exact .inl (Except.ok.inj loaded')
    · exact .inr (UInt64.lt_of_le_of_ne order same)
  · intro name descriptor there read
    have proper := Descriptor.isDots_of_ofFileName? read
    have member := Descriptor.mem_committed_iff.2 ⟨name, (found name proper).2 there, read⟩
    rw [← own] at member
    exact List.mem_map.1 member
  · intro name generation there read
    have proper := Descriptor.isDots_of_generationOf? read
    exact Descriptor.lt_of_nextGeneration counted ((found name proper).2 there) read

/-- A session can be started again on the folder of one, where it finds the same tables. -/
theorem IsCurrent.restart (current : session.IsCurrent settings folder store.disk)
    {again : Settings} (valid : again.validate = .ok ()) (shared : again.dataDir = settings.dataDir) :
    ∃ reopened, Session.start again store = (.ok reopened, store) ∧
      reopened.IsCurrent again folder store.disk ∧ reopened.memtable.isEmpty = true := by
  have located := current.located
  rw [← shared] at located
  obtain ⟨names, listed⟩ := Disk.exists_names located
  obtain ⟨folder', located', found⟩ := Disk.mem_names_iff listed
  rw [located] at located'
  cases located'
  have open' {descriptor : Descriptor} (member : descriptor ∈ Descriptor.committed again.dataDir names) :
      ∃ table ∈ session.tables, table.descriptor = descriptor := by
    obtain ⟨name, member, read⟩ := Descriptor.mem_committed_iff.1 member
    have proper := Descriptor.isDots_of_ofFileName? read
    rw [shared] at read
    exact current.listed name descriptor ((found name proper).1 member) read
  have distinct : Set.InjOn Descriptor.generation
      {table | table ∈ Descriptor.committed again.dataDir names} := by
    intro left member right member' same
    obtain ⟨table, held, rfl⟩ := open' member
    obtain ⟨table', held', rfl⟩ := open' member'
    rw [current.eq_of_generation held held' same]
  have below : ∀ name ∈ names, ∀ generation, Descriptor.generationOf? name = some generation →
      generation < session.nextGeneration := by
    intro name member generation read
    have proper := Descriptor.isDots_of_generationOf? read
    exact current.earlier name generation ((found name proper).1 member) read
  obtain ⟨reopened, opened⟩ : ∃ reopened, ofDisk again store.disk = .ok reopened := by
    refine exists_ofDisk listed (fun descriptor member => ?_) (Descriptor.exists_nextGeneration below)
    obtain ⟨table, held, rfl⟩ := open' member
    exact ⟨table, (current.loaded table held).2⟩
  have there : store.disk.find again.dataDir = .ok .folder :=
    Disk.find_of_locate located
  have started := start_of_find valid there
  obtain ⟨folder', current', empty⟩ := isCurrent_of_ofDisk opened listed distinct
  have located' := current'.located
  rw [located] at located'
  cases located'
  rw [opened] at started
  exact ⟨reopened, started, current', empty⟩

/-- The medium keeps what it takes, and no unit in the buffer is too large for a table. -/
structure FlushFits (session : Session) (medium : Medium) : Prop where
  keeps : ∀ component, (medium.sink component).keeps = true
  units : ∀ partition ∈ session.memtable.toList, partition.UnitsFit

/-- Something was done under the vacant names of the next table of a session, and all else was
spared. -/
structure Spared (session : Session) (folder : Path) (disk : Disk) (descriptor : Descriptor)
    (later : Disk) : Prop where
  directory : descriptor.directory = session.settings.dataDir
  generation : descriptor.generation = session.nextGeneration
  bare : ∀ isFinal component, disk.node? (folder ++ [descriptor.nameOf isFinal component]) = none
  spares : descriptor.Spares folder disk later

namespace Spared

variable {descriptor : Descriptor} {after : Disk}

/-- The files of all tables of the session are kept. -/
theorem keepsFile (spared : session.Spared folder disk descriptor after)
    (current : session.IsCurrent settings folder disk) {other : Reader}
    (member : other ∈ session.tables) (component : Component) :
    other.descriptor.KeepsFile disk after component := by
  have directory := (current.loaded other member).1
  apply spared.spares.keepsFile spared.bare (current.resides directory)
  · rw [directory, spared.directory, current.same]
  · intro equal
    have below := current.generation_lt member
    rw [equal, spared.generation] at below
    exact absurd below (UInt64.lt_irrefl _)

/-- The folder is where it was. -/
theorem located (spared : session.Spared folder disk descriptor after)
    (current : session.IsCurrent settings folder disk) :
    after.locate settings.dataDir = .ok (folder, .folder) :=
  Disk.locate_of_isOpen (fun _ => spared.spares.isOpen spared.bare) current.located

/-- All tables of the session are opened as they are. -/
theorem loaded (spared : session.Spared folder disk descriptor after)
    (current : session.IsCurrent settings folder disk) {other : Reader}
    (member : other ∈ session.tables) : Reader.load after other.descriptor = .ok other := by
  have keeps := spared.keepsFile current member
  refine Reader.load_of_keepsFile (fun component _ => keeps component) ?_
    (current.loaded other member).2
  exact fun node found => ((keeps .data).find node).2 found

/-- All tables of the session know what they knew. -/
theorem map_reading (spared : session.Spared folder disk descriptor after)
    (current : session.IsCurrent settings folder disk) (key : Key) :
    session.tables.map (fun other => other.reading after key) =
      session.tables.map fun other => other.reading disk key := by
  refine List.map_congr_left fun other member => ?_
  rw [Reader.reading, Reader.partition?_of_keepsFile (spared.keepsFile current member)
    (current.loaded other member).2, ← Reader.reading]

/-- What is in the folder has a name of the table or was there before. -/
theorem nameOf_or_there (spared : session.Spared folder disk descriptor after) {name : String}
    (there : after.node? (folder ++ [name]) ≠ none) :
    (∃ isFinal component, descriptor.nameOf isFinal component = name) ∨
      disk.node? (folder ++ [name]) ≠ none := by
  by_cases owned : descriptor.Owns folder (folder ++ [name])
  · exact .inl (Descriptor.exists_nameOf_of_owns owned)
  · rw [spared.spares.nodes _ owned] at there
    exact .inr there

end Spared

/-- A table of the next generation was added to the folder of a session, with what the buffer held. -/
structure Shelves (session : Session) (folder : Path) (disk : Disk) (table : Reader) (later : Disk) :
    Prop where
  directory : table.descriptor.directory = session.settings.dataDir
  generation : table.descriptor.generation = session.nextGeneration
  bare : ∀ isFinal component,
    disk.node? (folder ++ [table.descriptor.nameOf isFinal component]) = none
  spares : table.descriptor.Spares folder disk later
  loaded : Reader.load later table.descriptor = .ok table
  holds : ∃ (blockSize : UInt64) (placed : List (Placed blockSize)),
    (placed.map fun one => one.partition) = session.memtable.toList ∧ table.Serves later placed

/-- A flush that succeeds adds such a table. -/
theorem IsCurrent.shelves (current : session.IsCurrent settings folder store.disk) {medium : Medium}
    {plan : WriterPlan} {table : Reader} {generation : UInt64} (fits : session.FlushFits medium)
    (planned : session.flushPlan medium = .ok plan)
    (flushed : session.memtable.flush plan store = (.ok table, later))
    (counted : exactSum session.nextGeneration 1 = .ok generation) :
    session.Shelves folder store.disk table later.disk := by
  obtain ⟨still, resides, vacant⟩ := current.ready.resides planned
  obtain ⟨spares, holds, -⟩ :=
    current.ready.flush current.plain fits.keeps fits.units planned flushed counted
  obtain ⟨-, rfl, directory, own⟩ := flushPlan_eq_ok planned
  have bare := vacant folder resides
  rw [← still] at vacant
  have loaded := Memtable.load_of_flush fits.keeps vacant flushed
  have named : table.descriptor = plan.descriptor := (Reader.load_eq_ok_iff.1 loaded).1
  rw [← named] at directory own bare spares loaded
  exact ⟨directory, own, bare, spares, loaded, settings.blockSize, holds⟩

namespace Shelves

variable {table : Reader} {after : Disk}

theorem spared (shelves : session.Shelves folder disk table after) :
    session.Spared folder disk table.descriptor after :=
  ⟨shelves.directory, shelves.generation, shelves.bare, shelves.spares⟩

/-- The session that has the table too is the one on the folder. -/
theorem isCurrent (shelves : session.Shelves folder disk table after)
    (current : session.IsCurrent settings folder disk) {generation : UInt64}
    (counted : exactSum session.nextGeneration 1 = .ok generation) :
    IsCurrent settings folder { session with
        tables := session.tables ++ [table]
        nextGeneration := generation
        memtable := {} } after := by
  have directory := shelves.directory
  rw [current.same] at directory
  have given : session.nextGeneration < generation := by
    have above := toNat_of_exactSum counted
    have one : (1 : UInt64).toNat = 1 := rfl
    rw [UInt64.lt_iff_toNat_lt]
    omega
  refine ⟨current.same, shelves.spared.located current, Memtable.isPlain_empty, ?_, ?_, ?_, ?_⟩
  · intro other member
    rcases List.mem_append.1 member with old | new
    · exact ⟨(current.loaded other old).1, shelves.spared.loaded current old⟩
    · rw [List.mem_singleton.1 new]
      exact ⟨directory, shelves.loaded⟩
  · refine List.pairwise_append.2 ⟨current.ordered, List.pairwise_singleton _ _, ?_⟩
    intro older old newer new
    rw [List.mem_singleton.1 new, Reader.IsNotAfter, shelves.generation]
    exact .inr (current.generation_lt old)
  · intro name descriptor there read
    rcases shelves.spared.nameOf_or_there there with ⟨isFinal, component, rfl⟩ | there
    · rw [← directory] at read
      exact ⟨table, List.mem_append_right _ List.mem_cons_self,
        (Descriptor.ofFileName?_nameOf read).symm⟩
    · obtain ⟨other, old, equal⟩ := current.listed name descriptor there read
      exact ⟨other, List.mem_append_left _ old, equal⟩
  · intro name generation' there read
    rcases shelves.spared.nameOf_or_there there with ⟨isFinal, component, rfl⟩ | there
    · rw [Descriptor.generationOf?_nameOf, shelves.generation] at read
      cases read
      exact given
    · exact UInt64.lt_trans (current.earlier name generation' there read) given

/-- With the table the session knows what it knew with its buffer. -/
theorem reading_eq (shelves : session.Shelves folder disk table after)
    (current : session.IsCurrent settings folder disk) (generation : UInt64) (key : Key) :
    Session.reading { session with
        tables := session.tables ++ [table]
        nextGeneration := generation
        memtable := {} } after key = session.reading disk key := by
  obtain ⟨blockSize, placed, same, serves⟩ := shelves.holds
  have stored : table.reading after key = .ok (session.memtable.contents key).standing := by
    rw [Reader.reading, serves.partition?_eq, Memtable.lookup_eq same,
      ← current.plain.standingOf_partition?]
    rfl
  rw [Session.reading_eq Memtable.isPlain_empty, Session.reading_eq current.plain, List.map_append,
    List.prod_append, shelves.spared.map_reading current key, List.map_singleton, List.prod_singleton, stored,
    Memtable.contents_empty, Contents.standing_empty]
  exact mul_one _

end Shelves

/-- A flush that succeeds adds its table to the session, and nothing else is known of any key. -/
theorem IsCurrent.flush (current : session.IsCurrent settings folder store.disk) {medium : Medium}
    {summary : Option FlushSummary} (fits : session.FlushFits medium)
    (flushed : session.flush medium store = (.ok summary, next, later)) :
    next.IsCurrent settings folder later.disk ∧
      next.lastTimestamp = session.lastTimestamp ∧ next.memtable.isEmpty = true ∧
      (∀ key, next.reading later.disk key = session.reading store.disk key) ∧
      ∀ key, key ∈ next.keys ↔ key ∈ session.keys := by
  rcases Session.flush_eq_ok flushed with ⟨empty, rfl, rfl⟩ | ⟨plan, table, generation, planned,
    written, counted, rfl⟩
  · exact ⟨current, rfl, empty, fun _ => rfl, fun _ => .rfl⟩
  · have shelves := current.shelves fits planned written counted
    obtain ⟨blockSize, placed, same, serves⟩ := shelves.holds
    exact ⟨shelves.isCurrent current counted, rfl, Std.TreeMap.isEmpty_emptyc,
      shelves.reading_eq current generation, fun key => mem_keys_flushed serves same generation⟩

end Session

end SortedTable

import Mathlib.Data.Set.Function
import Mathlib.Order.Basic
import SortedTable.Proofs.Disk.Arrangement
import SortedTable.Proofs.Session.Failure
import SortedTable.Proofs.Sorting

namespace SortedTable

namespace Descriptor

variable {directory : String} {names names' : List String}

/-- The tables of one generation, in the order of the names of their lists of contents. -/
def ofGeneration (directory : String) (names : List String) (generation : UInt64) : List Descriptor :=
  (names.filterMap (contentsOf? directory)).filter (·.generation = generation)

theorem filter_committed (directory : String) (names : List String) (generation : UInt64) :
    (committed directory names).filter (·.generation = generation) =
      ofGeneration directory names generation := by
  refine filter_mergeSort_of_tied ?_ ?_ _ _ ?_
  · intro first second third order order'
    rw [decide_eq_true_iff] at order order' ⊢
    exact UInt64.le_trans order order'
  · intro first second
    rw [Bool.or_eq_true, decide_eq_true_iff, decide_eq_true_iff]
    exact UInt64.le_total _ _
  · intro left right own own'
    rw [decide_eq_true_iff] at own own' ⊢
    rw [own, own']
    exact UInt64.le_refl _

/-- The same tables are listed in the same order exactly if those of each generation are. -/
theorem committed_eq_committed_iff :
    committed directory names' = committed directory names ↔
      ∀ generation, ofGeneration directory names' generation =
        ofGeneration directory names generation := by
  simp only [← filter_committed]
  constructor
  · intro same generation
    rw [same]
  · exact eq_of_filter_rank (pairwise_committed _ _) (pairwise_committed _ _)

theorem perm_committed (directory : String) (same : names'.Perm names) :
    (committed directory names').Perm (committed directory names) := by
  rw [committed_eq, committed_eq]
  exact (List.mergeSort_perm _ _).trans ((same.filterMap _).trans (List.mergeSort_perm _ _).symm)

/-- The order of the names does not matter exactly if no two tables are of one generation. -/
theorem committed_perm_iff :
    (∀ others, others.Perm names → committed directory others = committed directory names) ↔
      Set.InjOn generation {table | table ∈ committed directory names} := by
  constructor
  · -- either of two tables of one generation can be the first, so they are the same
    intro same left member right member' tied
    have first {table : Descriptor} (member : table ∈ committed directory names) :
        (ofGeneration directory names table.generation).head? = some table := by
      obtain ⟨name, present, read⟩ := mem_committed_iff.1 member
      have front := List.perm_cons_erase present
      rw [← committed_eq_committed_iff.1 (same _ front.symm), ofGeneration,
        List.filterMap_cons_some (contentsOf?_eq_some_iff.2 read), List.filter_cons_of_pos (by simp)]
      rfl
    have heads := first member
    rw [tied, first member'] at heads
    exact (Option.some.inj heads).symm
  · intro distinct others reordered
    have perm := perm_committed directory reordered
    refine List.Perm.eq_of_pairwise ?_ (pairwise_committed _ _) (pairwise_committed _ _) perm
    intro left right member member' order order'
    exact distinct (perm.mem_iff.1 member) member' (UInt64.le_antisymm order order')

/-- The next generation does not depend on the order of the names. -/
theorem nextGeneration_of_perm (same : names'.Perm names) :
    nextGeneration names' = nextGeneration names := by
  have greatest : (names'.filterMap generationOf?).foldl max 0 =
      (names.filterMap generationOf?).foldl max 0 := by
    rw [← UInt64.toNat_inj]
    refine eq_of_forall_gt_iff fun bound => ?_
    simp only [foldl_max_lt_iff, (same.filterMap generationOf?).mem_iff]
  rw [nextGeneration, nextGeneration, greatest]

end Descriptor

/-- A table is opened from what its paths open and from the bytes of its files. -/
theorem Reader.load_congr {disk other : Disk} (find : ∀ text, other.find text = disk.find text)
    (read : ∀ node, other.read node = disk.read node) (descriptor : Descriptor) :
    Reader.load other descriptor = Reader.load disk descriptor := by
  have committed : descriptor.isCommitted other = descriptor.isCommitted disk := by
    simp only [Descriptor.isCommitted, Disk.exists?, find]
  have statistics : descriptor.loadStatistics other = descriptor.loadStatistics disk := by
    simp only [Descriptor.loadStatistics, Descriptor.open?, find, read]
  have filter : descriptor.loadFilter other = descriptor.loadFilter disk := by
    simp only [Descriptor.loadFilter, find, read]
  have parts (filter : Filter) (statistics : Statistics) :
      Reader.ofParts .sound other descriptor filter statistics =
        Reader.ofParts .sound disk descriptor filter statistics := by
    simp only [Reader.ofParts, Descriptor.open?, find, read]
  simp only [Reader.load, committed, statistics, filter, parts]

namespace Session

variable {settings : Settings} {session : Session} {store other began : Store} {disk : Disk}
  {names names' : List String}

/-- A session reads the same on a disk whose entries are in another order. -/
theorem get_of_rearranges {later : Disk} (rearranges : disk.Rearranges later) (session : Session)
    (key : Key) : session.get later key = session.get disk key := by
  have partition (table : Reader) : table.partition? later key = table.partition? disk key :=
    Reader.partition?_congr (rearranges.read _) (rearranges.read _) key
  simp only [Session.get, sources, partition]

/-- Tables that were opened are those that their descriptors open. -/
theorem eq_filterMap_load {tables : List Reader}
    (loaded : ∀ table ∈ tables, Reader.load disk table.descriptor = .ok table) :
    tables = (tables.map Reader.descriptor).filterMap fun descriptor =>
      (Reader.load disk descriptor).toOption := by
  induction tables with
  | nil => rfl
  | cons table rest ih =>
      rw [List.forall_mem_cons] at loaded
      rw [List.map_cons, List.filterMap_cons_some (by rw [loaded.1]; rfl), ← ih loaded.2]

/-- The session with what descriptors open. -/
def opening (settings : Settings) (disk : Disk) (tables : List Descriptor) (next : UInt64) :
    Session where
  settings := settings
  tables := tables.filterMap fun table => (Reader.load disk table).toOption
  nextGeneration := next

/-- A session is started with what the descriptors of the committed tables open. -/
theorem start_eq_ok (settings : Settings) (store : Store) {tables : List Descriptor} {next : UInt64}
    (valid : settings.validate = .ok ())
    (listed : store.disk.names settings.dataDir = .ok names)
    (own : Descriptor.committed settings.dataDir names = tables)
    (loaded : ∀ table ∈ tables, (Reader.load store.disk table).toOption.isSome = true)
    (counted : Descriptor.nextGeneration names = .ok next) :
    Session.start settings store = (.ok (opening settings store.disk tables next), store) := by
  obtain ⟨folder, located, -⟩ := Disk.mem_names_iff listed
  have found : store.disk.find settings.dataDir = .ok .folder :=
    Disk.find_of_locate located
  rw [← own] at loaded
  obtain ⟨session, opened⟩ := exists_ofDisk listed
    (fun descriptor member => ⟨_, Except.eq_ok_getD (loaded descriptor member)⟩) ⟨next, counted⟩
  obtain ⟨readers, next', rfl, same, loads, counted'⟩ := ofDisk_eq_ok opened listed
  rw [counted] at counted'
  cases counted'
  rw [start_of_find valid found, opened, opening, ← own, ← same, ← eq_filterMap_load loads]

/-- Another order of the names gives the same tables, in the same order exactly if they are listed
so. -/
theorem ofDisk_of_rearranges {later : Disk} (rearranges : disk.Rearranges later)
    (listed : disk.names settings.dataDir = .ok names)
    (listed' : later.names settings.dataDir = .ok names')
    (opened : ofDisk settings disk = .ok session) :
    ∃ again, ofDisk settings later = .ok again ∧ again.tables.Perm session.tables ∧
      again = { session with tables := again.tables } ∧
      (again = session ↔ Descriptor.committed settings.dataDir names' =
        Descriptor.committed settings.dataDir names) := by
  have reordered := rearranges.perm_names listed listed'
  have loads := Reader.load_congr rearranges.find rearranges.read
  have perm := Descriptor.perm_committed settings.dataDir reordered
  obtain ⟨tables, next, rfl, own, loaded, counted⟩ := ofDisk_eq_ok opened listed
  obtain ⟨again, opened'⟩ : ∃ again, ofDisk settings later = .ok again := by
    refine exists_ofDisk listed' (fun descriptor member => ?_)
      ⟨next, (Descriptor.nextGeneration_of_perm reordered).trans counted⟩
    rw [perm.mem_iff, ← own] at member
    obtain ⟨table, held, rfl⟩ := List.mem_map.1 member
    exact ⟨table, (loads _).trans (loaded table held)⟩
  refine ⟨again, opened', ?_⟩
  obtain ⟨tables', next', rfl, own', loaded', counted'⟩ := ofDisk_eq_ok opened' listed'
  rw [Descriptor.nextGeneration_of_perm reordered, counted] at counted'
  cases counted'
  simp only [loads] at loaded'
  have tables_eq := eq_filterMap_load loaded
  have tables_eq' := eq_filterMap_load loaded'
  rw [own] at tables_eq
  rw [own'] at tables_eq'
  refine ⟨?_, rfl, fun same => ?_, fun same => ?_⟩
  · dsimp only
    rw [tables_eq, tables_eq']
    exact perm.filterMap _
  · have equal : tables' = tables := congrArg Session.tables same
    rw [← own, ← own', equal]
  · rw [tables_eq, tables_eq', same]

/-- The order of the names in a folder decides at most the order of the tables of one generation. -/
theorem start_of_rearranges {other : Store} (rearranges : store.disk.Rearranges other.disk)
    (listed : store.disk.names settings.dataDir = .ok names)
    (listed' : other.disk.names settings.dataDir = .ok names') :
    (∀ others, others.Perm names →
      (Descriptor.committed settings.dataDir others).Perm
          (Descriptor.committed settings.dataDir names) ∧
        (Descriptor.committed settings.dataDir others).Pairwise
          fun left right => left.generation ≤ right.generation) ∧
    ((∀ others, others.Perm names → Descriptor.committed settings.dataDir others =
        Descriptor.committed settings.dataDir names) ↔
      Set.InjOn Descriptor.generation
        {table | table ∈ Descriptor.committed settings.dataDir names}) ∧
    (Descriptor.committed settings.dataDir names' = Descriptor.committed settings.dataDir names ↔
      ∀ generation, Descriptor.ofGeneration settings.dataDir names' generation =
        Descriptor.ofGeneration settings.dataDir names generation) ∧
    (∀ session began, Session.start settings store = (.ok session, began) →
      ∃ again, Session.start settings other = (.ok again, other) ∧
        again.tables.Perm session.tables ∧ again = { session with tables := again.tables } ∧
        (again = session ↔ Descriptor.committed settings.dataDir names' =
          Descriptor.committed settings.dataDir names)) ∧
    ∀ (session : Session) key, session.get other.disk key = session.get store.disk key := by
  refine ⟨fun others reordered => ⟨Descriptor.perm_committed _ reordered,
    Descriptor.pairwise_committed _ _⟩, Descriptor.committed_perm_iff,
    Descriptor.committed_eq_committed_iff, fun session began started => ?_,
    fun session key => get_of_rearranges rearranges session key⟩
  obtain ⟨folder, located, -⟩ := Disk.mem_names_iff listed
  obtain ⟨folder', located', -⟩ := Disk.mem_names_iff listed'
  have found' : other.disk.find settings.dataDir = .ok .folder :=
    Disk.find_of_locate located'
  obtain ⟨rfl, valid⟩ := eq_of_start started located
  obtain ⟨again, opened, rest⟩ :=
    ofDisk_of_rearranges rearranges listed listed' (ofDisk_of_start started)
  exact ⟨again, by rw [start_of_find valid found', opened], rest⟩

/-- A disk with two tables, in which a column has two values of one time. -/
def twoTables (first second : Descriptor) : Disk :=
  let holding (byte : UInt8) : Memtable :=
    ({} : Memtable).put (.ofBytes [4]) [] ⟨"name", 1, some [byte]⟩
  let planned (descriptor : Descriptor) : WriterPlan := { descriptor, settings := trialSettings }
  let began : Store := ⟨Disk.empty.applyAll [.createFolder ["tables"]], []⟩
  ((holding 2).flush (planned second) ((holding 1).flush (planned first) began).2).2.disk

/-- The names of the files of two tables without filters, the newest first. -/
def twoTableNames (first second : Descriptor) : List String :=
  [second, first].flatMap fun table =>
    [.contents, .statistics, .index, .data].map table.fileName

def olderVersion : Descriptor := ⟨"tables", 1, .ma⟩

def newerVersion : Descriptor := ⟨"tables", 1, .nb⟩

def furtherTable : Descriptor := ⟨"tables", 2, .nb⟩

/-- A disk with tables of two generations. -/
def successors : Disk := twoTables olderVersion furtherTable

/-- Tables of two generations are merged in the order of the generations, whatever that of their names. -/
theorem start_of_rearranges_successors :
    successors.names "tables" = .ok (twoTableNames olderVersion furtherTable) ∧
      successors.reversed.names "tables" = .ok (twoTableNames olderVersion furtherTable).reverse ∧
      Session.start trialSettings ⟨successors, []⟩ =
        (.ok (opening trialSettings successors [olderVersion, furtherTable] 3), ⟨successors, []⟩) ∧
      Session.start trialSettings ⟨successors.reversed, []⟩ =
        (.ok (opening trialSettings successors [olderVersion, furtherTable] 3),
          ⟨successors.reversed, []⟩) := by
  have evaluated :
      (successors.entries.map Prod.fst).Nodup ∧
      successors.names "tables" = .ok (twoTableNames olderVersion furtherTable) ∧
      successors.reversed.names "tables" =
        .ok (twoTableNames olderVersion furtherTable).reverse ∧
      (twoTableNames olderVersion furtherTable).reverse.filterMap (Descriptor.contentsOf? "tables") =
        [olderVersion, furtherTable] ∧
      (∀ table ∈ [olderVersion, furtherTable],
        (Reader.load successors table).toOption.isSome = true) ∧
      Descriptor.nextGeneration (twoTableNames olderVersion furtherTable) = .ok 3 := by
    decide +kernel
  obtain ⟨distinct, listed, listed', read, loaded, counted⟩ := evaluated
  have reordered := List.reverse_perm (twoTableNames olderVersion furtherTable)
  have own' := Descriptor.committed_of_pairwise read (by decide)
  have perm := Descriptor.perm_committed "tables" reordered
  rw [own'] at perm
  have single : Set.InjOn Descriptor.generation
      {table | table ∈ Descriptor.committed "tables" (twoTableNames olderVersion furtherTable)} := by
    have apart : ∀ left ∈ [olderVersion, furtherTable], ∀ right ∈ [olderVersion, furtherTable],
        left.generation = right.generation → left = right := by decide
    intro left member right member'
    exact apart left (perm.mem_iff.2 member) right (perm.mem_iff.2 member')
  obtain ⟨-, any, -, again, -⟩ := @start_of_rearranges trialSettings ⟨successors, []⟩ _ _
    ⟨successors.reversed, []⟩ (Disk.rearranges_reversed distinct) listed listed'
  have same := any.2 single _ reordered
  have started := start_eq_ok trialSettings ⟨successors, []⟩ rfl listed (same.symm.trans own') loaded
    counted
  obtain ⟨session, started', -, -, equal⟩ := again _ _ started
  rw [equal.2 same] at started'
  exact ⟨listed, listed', started, started'⟩

/-- A disk with tables of both versions of one generation. -/
def rivals : Disk := twoTables olderVersion newerVersion

/-- Of two versions of one generation with values of one time, the one that is listed first is read. -/
theorem get_of_rearranges_rivals :
    rivals.Rearranges rivals.reversed ∧
      rivals.names "tables" = .ok (twoTableNames olderVersion newerVersion) ∧
      rivals.reversed.names "tables" = .ok (twoTableNames olderVersion newerVersion).reverse ∧
      Descriptor.committed "tables" (twoTableNames olderVersion newerVersion) =
        [newerVersion, olderVersion] ∧
      Descriptor.committed "tables" (twoTableNames olderVersion newerVersion).reverse =
        [olderVersion, newerVersion] ∧
      (∃ session, Session.start trialSettings ⟨rivals, []⟩ = (.ok session, ⟨rivals, []⟩) ∧
        (session.get rivals (.ofBytes [4])).toOption = some [⟨⟨false, [], "name"⟩, [2], 1⟩]) ∧
      ∃ session, Session.start trialSettings ⟨rivals.reversed, []⟩ =
          (.ok session, ⟨rivals.reversed, []⟩) ∧
        (session.get rivals.reversed (.ofBytes [4])).toOption =
          some [⟨⟨false, [], "name"⟩, [1], 1⟩] := by
  have evaluated :
      (rivals.entries.map Prod.fst).Nodup ∧
      rivals.names "tables" = .ok (twoTableNames olderVersion newerVersion) ∧
      rivals.reversed.names "tables" = .ok (twoTableNames olderVersion newerVersion).reverse ∧
      (twoTableNames olderVersion newerVersion).filterMap (Descriptor.contentsOf? "tables") =
        [newerVersion, olderVersion] ∧
      (∀ table ∈ [newerVersion, olderVersion],
        (Reader.load rivals table).toOption.isSome = true) ∧
      Descriptor.nextGeneration (twoTableNames olderVersion newerVersion) = .ok 2 ∧
      (Session.get (opening trialSettings rivals [newerVersion, olderVersion] 2) rivals
        (.ofBytes [4])).toOption = some [⟨⟨false, [], "name"⟩, [2], 1⟩] ∧
      (Session.get (opening trialSettings rivals [olderVersion, newerVersion] 2) rivals
        (.ofBytes [4])).toOption = some [⟨⟨false, [], "name"⟩, [1], 1⟩] := by
    decide +kernel
  obtain ⟨distinct, listed, listed', read, loaded, counted, first, second⟩ := evaluated
  have rearranges := Disk.rearranges_reversed distinct
  have own := Descriptor.committed_of_pairwise read (by decide)
  have own' : Descriptor.committed "tables" (twoTableNames olderVersion newerVersion).reverse =
      [olderVersion, newerVersion] := by
    refine Descriptor.committed_of_pairwise ?_ (by decide)
    rw [List.filterMap_reverse, read]
    rfl
  have counted' := (Descriptor.nextGeneration_of_perm (List.reverse_perm _)).trans counted
  have loads (table : Descriptor) : Reader.load rivals.reversed table = Reader.load rivals table :=
    Reader.load_congr rearranges.find rearranges.read table
  have loaded' : ∀ table ∈ [olderVersion, newerVersion],
      (Reader.load rivals.reversed table).toOption.isSome = true := by
    intro table member
    rw [loads]
    exact loaded table (List.mem_reverse.2 member)
  have started := start_eq_ok trialSettings ⟨rivals, []⟩ rfl listed own loaded counted
  have started' := start_eq_ok trialSettings ⟨rivals.reversed, []⟩ rfl listed' own' loaded' counted'
  refine ⟨rearranges, listed, listed', own, own', ⟨_, started, first⟩, _, started', ?_⟩
  rw [get_of_rearranges rearranges]
  simpa only [opening, loads] using second

end Session

end SortedTable

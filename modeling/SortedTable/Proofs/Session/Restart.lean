import SortedTable.Proofs.Session.Failure

namespace SortedTable

/-- A time is above the later of two exactly if it is above both. -/
theorem all_latest (first second : Option Int64) (time : Int64) :
    (latest first second).all (· < time) = (first.all (· < time) && second.all (· < time)) := by
  have greatest (left right : Int64) : max left right < time ↔ left < time ∧ right < time := by
    simp only [Int64.lt_iff_toInt_lt, toInt_max]
    omega
  cases second with
  | none => simp [latest]
  | some second =>
      cases first with
      | none => simp [latest]
      | some first => simp [latest, greatest]

theorem CellView.of?_eq_some_iff {deletedAt : Option Int64} {slot : Slot} {cell : Cell}
    {view : CellView} :
    CellView.of? deletedAt slot cell = some view ↔
      view.slot = slot ∧ view.timestamp = cell.timestamp ∧ cell.value = some view.value ∧
        deletedAt.all (· < cell.timestamp) = true := by
  unfold CellView.of?
  split
  · rename_i alive
    rw [Option.map_eq_some_iff]
    constructor
    · rintro ⟨value, held, rfl⟩
      exact ⟨rfl, rfl, held, alive⟩
    · rintro ⟨rfl, same, held, -⟩
      exact ⟨view.value, held, by rw [← same]⟩
  · rename_i dead
    exact ⟨nofun, fun all => absurd all.2.2.2 dead⟩

namespace Standing

/-- A cell is read of a key with this standing. -/
def Shows (standing : Standing) (view : CellView) : Prop :=
  ∃ cell, standing.cells view.slot = some cell ∧
    CellView.of? standing.deletedAt view.slot cell = some view

variable {standing : Standing} {slot : Slot} {time : Int64} {view : CellView}

/-- A slot is read as it was written if the write is newer than its cell and than the last deletion. -/
theorem shows_mul_write {value : Bytes}
    (newer : ∀ cell, standing.cells slot = some cell → cell.timestamp < time)
    (alive : standing.deletedAt.all (· < time) = true) (own : view.slot = slot) :
    (standing * write slot ⟨slot.column, time, some value⟩).Shows view ↔
      view = ⟨slot, value, time⟩ := by
  have wins : Cells.winner (standing.cells slot) ⟨slot.column, time, some value⟩ =
      ⟨slot.column, time, some value⟩ := by
    cases held : standing.cells slot with
    | none => rfl
    | some cell =>
        refine Cells.winner_of_not_le ?_
        have below := newer cell held
        rw [Int64.lt_iff_toInt_lt] at below
        rw [Int64.le_iff_toInt_le]
        dsimp only
        omega
  have shown : CellView.of? (standing * write slot ⟨slot.column, time, some value⟩).deletedAt slot
      ⟨slot.column, time, some value⟩ = some ⟨slot, value, time⟩ := if_pos alive
  unfold Shows
  rw [cells_mul_write, own, if_pos rfl, wins]
  constructor
  · rintro ⟨cell, same, read⟩
    cases same
    exact (Option.some.inj (shown.symm.trans read)).symm
  · rintro rfl
    exact ⟨_, rfl, shown⟩

/-- Behind a deletion only newer cells are read. -/
theorem shows_mul_deletion :
    (standing * deletion time).Shows view ↔ standing.Shows view ∧ time < view.timestamp := by
  have cells : (standing * deletion time).cells view.slot = standing.cells view.slot := rfl
  have all (cell : Cell) : (standing * deletion time).deletedAt.all (· < cell.timestamp) = true ↔
      standing.deletedAt.all (· < cell.timestamp) = true ∧ time < cell.timestamp := by
    rw [deletedAt_mul, all_latest, Bool.and_eq_true, deletion, Option.all_some, decide_eq_true_iff]
  simp only [Shows, cells, CellView.of?_eq_some_iff, all]
  constructor
  · rintro ⟨cell, held, own, timed, value, alive, later⟩
    exact ⟨⟨cell, held, own, timed, value, alive⟩, timed ▸ later⟩
  · rintro ⟨⟨cell, held, own, timed, value, alive⟩, later⟩
    exact ⟨cell, held, own, timed, value, alive, timed ▸ later⟩

end Standing

/-- What is read in partitions of one key is what their standing shows. -/
theorem mem_mergedCells_iff {sources : List Partition} {view : CellView} :
    view ∈ mergedCells sources ↔ (standingOf sources).Shows view := by
  unfold mergedCells Standing.Shows
  dsimp only
  rw [List.mem_filterMap, ← deletedAt_eq]
  simp only [← getElem?_winners]
  constructor
  · rintro ⟨⟨slot, cell⟩, won, shown⟩
    obtain ⟨rfl, -⟩ := CellView.of?_eq_some_iff.1 shown
    exact ⟨cell, Std.TreeMap.mem_toList_iff_getElem?_eq_some.1 won, shown⟩
  · rintro ⟨cell, won, shown⟩
    exact ⟨(view.slot, cell), Std.TreeMap.mem_toList_iff_getElem?_eq_some.2 won, shown⟩

/-- A time is above those of all cells of a slot and of all deletions in sources of a key. -/
structure IsNewest (sources : List Partition) (slot : Slot) (time : Int64) : Prop where
  cells : ∀ cell, (slot, cell) ∈ sources.flatMap Partition.slots → cell.timestamp < time
  deletions : ∀ deleted, IsDeletedAt sources deleted → deleted < time

/-- A write at such a time is what is read of its slot. -/
theorem IsNewest.shows_iff {sources : List Partition} {slot : Slot} {time : Int64}
    (newest : IsNewest sources slot time) {value : Bytes} {view : CellView}
    (own : view.slot = slot) :
    (standingOf sources * .write slot ⟨slot.column, time, some value⟩).Shows view ↔
      view = ⟨slot, value, time⟩ := by
  refine Standing.shows_mul_write (fun cell won => ?_) ?_ own
  · rw [← getElem?_winners] at won
    exact newest.cells cell (Winners.mem_of_won won)
  · rw [← deletedAt_eq]
    exact all_deletedAt_iff.2 newest.deletions

namespace Session

variable {settings : Settings} {folder : Path} {session reopened : Session}
  {store later opened : Store} {disk : Disk} {key : Key}

/-- What is read of a key is what its standing shows. -/
theorem get_of_reading {standing : Standing} (known : session.reading disk key = .ok standing) :
    ∃ views, session.get disk key = .ok views ∧ ∀ view, view ∈ views ↔ standing.Shows view := by
  obtain ⟨sources, found, rfl⟩ := Except.map_eq_ok_iff.1 known
  refine ⟨mergedCells sources, ?_, fun view => mem_mergedCells_iff⟩
  rw [Session.get, found]
  rfl

/-- The session on a folder in which every key can be read. -/
structure IsReadable (settings : Settings) (folder : Path) (session : Session) (disk : Disk) : Prop
    extends IsCurrent settings folder session disk where
  known : ∀ key, ∃ standing, session.reading disk key = .ok standing

/-- Every key can still be read behind any actions. -/
theorem IsReadable.took {actions : List Action} {last : Session} {after : Disk}
    (readable : session.IsReadable settings folder disk)
    (took : Took settings folder session disk actions last after) :
    last.IsReadable settings folder after where
  toIsCurrent := took.current
  known key := by
    obtain ⟨standing, known⟩ := readable.known key
    exact ⟨_, (took.reading key).trans (by rw [known, Reading.ok_mul_ok])⟩

/-- A session that is started on the folder of one can read every key too. -/
theorem IsReadable.restarted (readable : session.IsReadable settings folder store.disk)
    {again : Settings} (shared : again.dataDir = settings.dataDir)
    (started : Session.start again store = (.ok reopened, opened)) :
    reopened.IsReadable again folder opened.disk := by
  have located := readable.located
  rw [← shared] at located
  obtain ⟨rfl, valid⟩ := eq_of_start started located
  obtain ⟨found, started', current, empty⟩ := readable.toIsCurrent.restart valid shared
  obtain rfl : found = reopened := Except.ok.inj (Prod.mk.inj (started'.symm.trans started)).1
  refine ⟨current, fun key => ?_⟩
  obtain ⟨standing, known⟩ := readable.known key
  rw [Session.reading_eq readable.plain] at known
  obtain ⟨stored, same, -⟩ := Except.bind_eq_ok_iff.1 known
  rw [Session.reading_eq current.plain,
    readable.toIsCurrent.prod_reading current shared key, same, Reading.ok_mul_ok]
  exact ⟨_, rfl⟩

/-- The session on an empty folder can read every key, and knows nothing of any. -/
theorem isReadable_of_names (started : Session.start settings store = (.ok session, opened))
    (listed : opened.disk.names settings.dataDir = .ok []) :
    ∃ folder, session.IsReadable settings folder opened.disk ∧
      ∀ key, session.reading opened.disk key = .ok 1 := by
  have opens := ofDisk_of_start started
  have bare : Descriptor.committed settings.dataDir [] = [] := by simp [Descriptor.committed]
  have distinct : Set.InjOn Descriptor.generation
      {table | table ∈ Descriptor.committed settings.dataDir []} := by simp [bare]
  obtain ⟨folder, current, empty⟩ := isCurrent_of_ofDisk opens listed distinct
  obtain ⟨tables, next, rfl, own, -⟩ := ofDisk_eq_ok opens listed
  rw [bare, List.map_eq_nil_iff] at own
  have known (key : Key) : Session.reading
      { settings, tables, nextGeneration := next } opened.disk key = .ok 1 := by
    rw [Session.reading_eq current.plain, own, List.map_nil, List.prod_nil, one_mul,
      Memtable.contents_of_isEmpty key empty, Contents.standing_empty]
  exact ⟨folder, ⟨current, fun key => ⟨1, known key⟩⟩, known⟩

/-- A session that was just opened on a folder in which only sessions wrote, one after the other. -/
inductive Opened (directory : String) : Session → Store → Prop
  | first {settings : Settings} {session : Session} {store opened : Store}
      (same : settings.dataDir = directory)
      (started : Session.start settings store = (.ok session, opened))
      (listed : opened.disk.names settings.dataDir = .ok []) : Opened directory session opened
  | again {settings : Settings} {session reopened : Session} {store later opened : Store}
      {actions : List Action} {outcome : Except Overflow Session}
      (earlier : Opened directory session store) (fit : session.AllFit store actions)
      (underwent : session.undergoAll store actions = (outcome, later))
      (same : settings.dataDir = directory)
      (started : Session.start settings later = (.ok reopened, opened)) :
      Opened directory reopened opened

theorem Opened.isReadable {directory : String} (opened : Opened directory session store) :
    ∃ settings folder, settings.dataDir = directory ∧
      session.IsReadable settings folder store.disk := by
  induction opened with
  | first same started listed =>
      obtain ⟨folder, readable, -⟩ := isReadable_of_names started listed
      exact ⟨_, folder, same, readable⟩
  | again earlier fit underwent same started ih =>
      obtain ⟨settings, folder, shared, readable⟩ := ih
      rcases Took.ended readable.toIsCurrent fit underwent with exhausted | ⟨front, last, took⟩
      · exact absurd started (exhausted _ _ _ _ (same.trans shared.symm) rfl)
      · exact ⟨_, folder, same, (readable.took took).restarted (same.trans shared.symm) started⟩

/-- A session that was just opened has nothing in its buffer and has given out no time. -/
theorem eq_fresh_of_start (started : Session.start settings store = (.ok session, opened)) :
    ∃ tables next, session = { settings, tables, nextGeneration := next } := by
  obtain ⟨-, tables, next, -, fresh, -⟩ := opened_of_start started
  exact ⟨tables, next, fresh⟩

theorem lastTimestamp_of_start (started : Session.start settings store = (.ok session, opened)) :
    session.lastTimestamp = 0 := by
  obtain ⟨tables, next, rfl⟩ := eq_fresh_of_start started
  rfl

theorem Opened.nextTimestamp {directory : String} (opened : Opened directory session store)
    (now : Int64) : session.nextTimestamp now = max now 1 := by
  have zero : session.lastTimestamp = 0 := by
    cases opened with
    | first same started listed => exact lastTimestamp_of_start started
    | again earlier fit underwent same started => exact lastTimestamp_of_start started
  rw [Session.nextTimestamp, zero]
  rfl

/-- A session that was just opened reads its first write if its time is above all that are stored. -/
theorem get_after_restart {directory : String} {session : Session} {store : Store}
    (opened : Opened directory session store) (now : Int64) (key : Key) :
    ∃ stored before, session.sources store.disk key = .ok stored ∧
      session.get store.disk key = .ok before ∧
      (∀ column value, IsNewest stored ⟨false, [], column⟩ (max now 1) →
        ∃ views, (session.put now key column value).get store.disk key = .ok views ∧
          ∀ view, view.slot = ⟨false, [], column⟩ →
            (view ∈ views ↔ view = ⟨⟨false, [], column⟩, value, max now 1⟩)) ∧
      (∀ column value, IsNewest stored ⟨true, [], column⟩ (max now 1) →
        ∃ views, (session.putStatic now key column value).get store.disk key = .ok views ∧
          ∀ view, view.slot = ⟨true, [], column⟩ →
            (view ∈ views ↔ view = ⟨⟨true, [], column⟩, value, max now 1⟩)) ∧
      ((session.delete now key).get store.disk key = .ok [] ↔
        ∀ view ∈ before, view.timestamp ≤ max now 1) := by
  obtain ⟨settings, folder, -, readable⟩ := opened.isReadable
  have current := readable.toIsCurrent
  obtain ⟨standing, known⟩ := readable.known key
  obtain ⟨before, got, shows⟩ := get_of_reading known
  obtain ⟨stored, found, rfl⟩ := Except.map_eq_ok_iff.1 known
  -- an action adds to the standing of the key what it writes, at the time that it gets
  have after (action : Action) (next : Session)
      (performed : session.perform store action = .ok (next, store))
      (reading : action.reading? = some now) :
      next.reading store.disk key = .ok (standingOf stored * action.standing key (max now 1)) := by
    have time : action.timeAfter session.lastTimestamp = max now 1 := by
      rw [Action.timeAfter, reading]
      exact opened.nextTimestamp now
    have fits (medium : Medium) (same : action = .flush medium) : session.FlushFits medium := by
      rw [same] at reading
      cases reading
    have took := Took.perform current fits performed
    rw [took.reading, known, Reading.ok_mul_ok, standingAfter, standingAfter, mul_one, time]
  refine ⟨stored, before, found, got, fun column value newest => ?_, fun column value newest => ?_, ?_⟩
  · have known' := after (.put now key column value) _ rfl rfl
    rw [Action.standing, if_pos rfl] at known'
    obtain ⟨views, got', shows'⟩ := get_of_reading known'
    exact ⟨views, got', fun view own => (shows' view).trans (newest.shows_iff own)⟩
  · have known' := after (.putStatic now key column value) _ rfl rfl
    rw [Action.standing, if_pos rfl] at known'
    obtain ⟨views, got', shows'⟩ := get_of_reading known'
    exact ⟨views, got', fun view own => (shows' view).trans (newest.shows_iff own)⟩
  · have known' := after (.delete now key) _ rfl rfl
    rw [Action.standing, if_pos rfl] at known'
    obtain ⟨views, got', shows'⟩ := get_of_reading known'
    rw [got', Except.ok.injEq, List.eq_nil_iff_forall_not_mem]
    refine forall_congr' fun view => ?_
    rw [shows', Standing.shows_mul_deletion, ← shows, not_and, Int64.not_lt]

/-- The session behind the trial was opened on a folder that was empty at first. -/
theorem opened_trialAgain : Opened "tables" trialAgain.1 trialAgain.2 := by
  have evaluated : (Session.start trialSettings ⟨.empty, []⟩).1.toOption.isSome = true ∧
      trialStart.2.disk.names trialSettings.dataDir = .ok [] ∧
      (∀ partition ∈ (trialStart.1.put 5 (.ofBytes [4]) "name" [1]).memtable.toList,
        partition.UnitsFit) ∧
      (trialStart.1.performAll trialStart.2 trial).toOption.isSome = true ∧
      (Session.start trialSettings trialEnd.2).1.toOption.isSome = true := by decide +kernel
  obtain ⟨started, listed, units, performed, again⟩ := evaluated
  have started : Session.start trialSettings ⟨.empty, []⟩ = (.ok trialStart.1, trialStart.2) :=
    Prod.ext (Except.eq_ok_getD started) rfl
  have performed : trialStart.1.performAll trialStart.2 trial = .ok (trialEnd.1, trialEnd.2) :=
    Except.eq_ok_getD performed
  have again : Session.start trialSettings trialEnd.2 = (.ok trialAgain.1, trialAgain.2) :=
    Prod.ext (Except.eq_ok_getD again) rfl
  have fit : trialStart.1.AllFit trialStart.2 trial := by
    refine ⟨nofun, fun next later wrote => ?_⟩
    cases wrote
    refine ⟨fun medium same => ?_, fun _ _ _ => ⟨nofun, fun _ _ _ => ⟨nofun, fun _ _ _ => trivial⟩⟩⟩
    cases same
    exact ⟨fun _ => rfl, units⟩
  exact .again (.first rfl started listed) fit (undergoAll_of_performAll performed) rfl again

/-- A value of the fifth microsecond is replaced by one of the ninth, and a deletion leaves nothing
then. -/
theorem get_after_restart_ninth :
    (∃ views, (trialAgain.1.put 9 (.ofBytes [4]) "name" [7]).get trialAgain.2.disk (.ofBytes [4]) =
        .ok views ∧ ∀ view, view.slot = ⟨false, [], "name"⟩ →
          (view ∈ views ↔ view = ⟨⟨false, [], "name"⟩, [7], 9⟩)) ∧
      (trialAgain.1.delete 9 (.ofBytes [4])).get trialAgain.2.disk (.ofBytes [4]) = .ok [] := by
  obtain ⟨stored, before, found, got, put, -, delete⟩ :=
    get_after_restart opened_trialAgain 9 (.ofBytes [4])
  have evaluated : ((trialAgain.1.sources trialAgain.2.disk (.ofBytes [4])).toOption.all
        fun sources => (sources.flatMap Partition.slots).all (fun held => held.2.timestamp < 9) &&
          sources.all fun source => source.deletion.isLive) = true ∧
      ((trialAgain.1.get trialAgain.2.disk (.ofBytes [4])).toOption.all
        fun views => views.all (·.timestamp ≤ 9)) = true := by decide +kernel
  rw [found, got] at evaluated
  simp only [Except.toOption, Option.all_some, Bool.and_eq_true, List.all_eq_true,
    decide_eq_true_iff] at evaluated
  obtain ⟨⟨older, live⟩, notNewer⟩ := evaluated
  have newest : IsNewest stored ⟨false, [], "name"⟩ (max 9 1) := by
    refine ⟨fun cell member => older (_, cell) member, ?_⟩
    rintro deleted ⟨source, member, dead, -⟩
    rw [live source member] at dead
    cases dead
  exact ⟨put "name" [7] newest, delete.2 notNewer⟩

/-- With the clock put back to the second microsecond the older value stays, also behind a deletion. -/
theorem get_after_restart_stale :
    Opened "tables" trialAgain.1 trialAgain.2 ∧
      ((trialAgain.1.put 2 (.ofBytes [4]) "name" [7]).get trialAgain.2.disk
        (.ofBytes [4])).toOption = some [⟨⟨false, [], "name"⟩, [1], 5⟩] ∧
      ((trialAgain.1.delete 2 (.ofBytes [4])).get trialAgain.2.disk (.ofBytes [4])).toOption =
        some [⟨⟨false, [], "name"⟩, [1], 5⟩] :=
  ⟨opened_trialAgain, by decide +kernel⟩

end Session

end SortedTable

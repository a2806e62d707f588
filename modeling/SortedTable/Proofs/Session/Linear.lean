import SortedTable.Proofs.Session.Flush
import SortedTable.Proofs.Session.Ledger

namespace SortedTable

/-- The next time is above the last one, unless there is none. -/
theorem toInt_nextTime {last now : Int64} (room : last.toInt < Int64.maxValue.toInt) :
    (max now (last + 1)).toInt = max now.toInt (last.toInt + 1) := by
  have least := last.le_toInt
  have most : Int64.maxValue.toInt = 2 ^ 63 - 1 := rfl
  have one : (1 : Int64).toInt = 1 := rfl
  have sum : (last + 1).toInt = last.toInt + 1 := by
    rw [Int64.toInt_add, one, Int.bmod_eq_of_le (by omega) (by omega)]
  have same : max now (last + 1) = if now ≤ last + 1 then last + 1 else now := rfl
  rw [same]
  split <;> rename_i order <;> rw [Int64.le_iff_toInt_le] at order <;> omega

theorem lt_nextTime {last : Int64} (room : last.toInt < Int64.maxValue.toInt) (now : Int64) :
    last < max now (last + 1) := by
  rw [Int64.lt_iff_toInt_lt, toInt_nextTime room]
  omega

/-- A deletion of a session counts as one, whatever its time. -/
theorem Session.isLive_secondsOf (time : Int64) :
    (Deletion.mk time (Session.secondsOf time)).isLive = false := by
  rw [Deletion.isLive, decide_eq_false_iff_not]
  intro same
  have first : time = Int64.minValue := congrArg Deletion.markedAt same
  rw [first] at same
  exact absurd same (by decide)

namespace Ledger

/-- A session has what its ledger says: under every key its sources represent what was written. -/
structure Tracks (ledger : Ledger) (settings : Settings) (session : Session) (disk : Disk) : Prop where
  plain : session.memtable.IsPlain
  last : session.lastTimestamp = ledger.last
  touched : ∀ key, key ∈ session.keys ↔ key ∈ ledger.touched
  stocked : ∃ folder shelves, session.IsStocked settings folder shelves disk ∧
    ∀ key, Represents (storedUnder shelves key ++ (session.memtable.partition? key).toList)
      (ledger.written key) ledger.last

namespace Tracks

variable {ledger : Ledger} {settings : Settings} {session next : Session} {store later : Store}
  {disk : Disk}

/-- A session that was started on a folder without names has an empty ledger. -/
theorem start (started : Session.start settings store = (.ok session, later))
    (listed : later.disk.names settings.dataDir = .ok []) :
    Tracks {} settings session later.disk := by
  obtain ⟨folder, located, bare⟩ := Disk.vacant_of_names listed
  obtain ⟨tables, next, rfl, own, -⟩ := Session.ofDisk_eq_ok (Session.ofDisk_of_start started) listed
  have none' : Descriptor.committed settings.dataDir [] = [] := List.mergeSort_nil
  rw [none', List.map_eq_nil_iff] at own
  subst own
  refine ⟨Memtable.isPlain_empty, rfl, ?_, folder, [], ⟨⟨rfl, located, ?_⟩, .nil⟩, ?_⟩
  · intro key
    rw [Session.mem_keys_iff]
    simp
  · intro descriptor _ _ isFinal component
    exact bare _ (descriptor.isName_nameOf isFinal component).proper
  · intro key
    have nothing : ({} : Memtable).partition? key = none := by
      rw [Memtable.partition?, Std.TreeMap.getElem?_emptyc, Option.map_none]
    rw [nothing]
    exact .nil 0

/-- A key of the buffer was set. -/
theorem set (tracks : Tracks ledger settings session disk) {changed : Memtable} {key : Key}
    {contents : Contents} {written : Written} {time : Int64}
    (made : changed.partitions = session.memtable.partitions.insert key contents)
    (plain : changed.IsPlain) (above : ledger.last < time)
    (represents : ∀ front, Represents (front ++ (session.memtable.partition? key).toList)
      (ledger.written key) ledger.last →
      Represents (front ++ (changed.partition? key).toList) written time) :
    Tracks (ledger.set key written time) settings
      { session with lastTimestamp := time, memtable := changed } disk := by
  obtain ⟨folder, shelves, stocked, represented⟩ := tracks.stocked
  refine ⟨plain, rfl, ?_, folder, shelves, ⟨⟨stocked.same, stocked.located, stocked.vacant⟩,
    stocked.serves⟩, ?_⟩
  · intro other
    have before := tracks.touched other
    rw [Session.mem_keys_iff] at before ⊢
    dsimp only
    rw [made, Std.TreeMap.mem_insert, Std.LawfulEqOrd.compare_eq_iff_eq]
    simp only [Ledger.set, List.mem_cons]
    rw [← before, or_left_comm, eq_comm]
  · intro other
    simp only [Ledger.set]
    by_cases same : other = key
    · subst same
      rw [Function.update_self]
      exact represents _ (represented other)
    · rw [Function.update_of_ne same]
      exact (represented other).insert_of_ne made same (Int64.le_of_lt above)

theorem put (tracks : Tracks ledger settings session disk)
    (room : ledger.last.toInt < Int64.maxValue.toInt) (now : Int64) (key : Key) (column : String)
    (value : Bytes) : Tracks (ledger.note (.put now key column value)) settings
      (session.put now key column value) disk := by
  have above := lt_nextTime room now
  rw [Session.put, Session.nextTimestamp, tracks.last]
  have made := session.memtable.partitions_put key [] ⟨column, max now (ledger.last + 1), some value⟩
  have plain := tracks.plain.put key ⟨column, max now (ledger.last + 1), some value⟩
  refine tracks.set made plain above fun front represents => ?_
  exact represents.insert_write tracks.plain plain made above
    (fun other => Contents.cell?_writeRow _ _ _ other) rfl

theorem putStatic (tracks : Tracks ledger settings session disk)
    (room : ledger.last.toInt < Int64.maxValue.toInt) (now : Int64) (key : Key) (column : String)
    (value : Bytes) : Tracks (ledger.note (.putStatic now key column value)) settings
      (session.putStatic now key column value) disk := by
  have above := lt_nextTime room now
  rw [Session.putStatic, Session.nextTimestamp, tracks.last]
  have made := session.memtable.partitions_putStatic key
    ⟨column, max now (ledger.last + 1), some value⟩
  have plain := tracks.plain.putStatic key ⟨column, max now (ledger.last + 1), some value⟩
  refine tracks.set made plain above fun front represents => ?_
  exact represents.insert_write tracks.plain plain made above
    (fun other => Contents.cell?_writeStatic _ _ other) rfl

theorem delete (tracks : Tracks ledger settings session disk)
    (room : ledger.last.toInt < Int64.maxValue.toInt) (now : Int64) (key : Key) :
    Tracks (ledger.note (.delete now key)) settings (session.delete now key) disk := by
  have above := lt_nextTime room now
  rw [Session.delete, Session.nextTimestamp, tracks.last]
  have marks : (Deletion.mk (max now (ledger.last + 1))
      (Session.secondsOf (max now (ledger.last + 1)))).isLive = false := Session.isLive_secondsOf _
  have made := session.memtable.partitions_deletePartition key
    ⟨max now (ledger.last + 1), Session.secondsOf (max now (ledger.last + 1))⟩
  have plain := tracks.plain.deletePartition key marks
  refine tracks.set made plain above fun front represents => ?_
  exact represents.insert_delete tracks.plain plain made above

/-- A flush that succeeds is not noticed. -/
theorem flush (tracks : Tracks ledger settings session store.disk) {medium : Medium}
    {summary : Option FlushSummary} (keeps : ∀ component, (medium.sink component).keeps = true)
    (units : ∀ partition ∈ session.memtable.toList, partition.UnitsFit)
    (flushed : session.flush medium store = (.ok summary, next, later)) :
    Tracks ledger settings next later.disk := by
  rcases Session.flush_eq_ok flushed with ⟨-, rfl, rfl⟩ | ⟨plan, reader, generation, planned,
    written, counted, rfl⟩
  · exact tracks
  · obtain ⟨folder, shelves, stocked, represented⟩ := tracks.stocked
    obtain ⟨placed, same, serves, stocked'⟩ :=
      stocked.flush tracks.plain keeps units planned written counted
    refine ⟨Memtable.isPlain_empty, tracks.last, ?_, folder, shelves ++ [placed], stocked', ?_⟩
    · intro key
      exact (Session.mem_keys_flushed serves same generation).trans (tracks.touched key)
    · intro key
      exact (represented key).flush same

/-- Every action keeps a session and its ledger together. -/
theorem perform (tracks : Tracks ledger settings session store.disk) {action : Session.Action}
    (clock : ∀ now, action.reading? = some now → ledger.last.toInt < Int64.maxValue.toInt)
    (keeps : ∀ medium, action = .flush medium →
      ∀ component, (medium.sink component).keeps = true)
    (units : ∀ medium, action = .flush medium →
      ∀ partition ∈ session.memtable.toList, partition.UnitsFit)
    (performed : session.perform store action = .ok (next, later)) :
    Tracks (ledger.note action) settings next later.disk := by
  cases action with
  | put now key column value =>
      cases performed
      exact tracks.put (clock now rfl) now key column value
  | putStatic now key column value =>
      cases performed
      exact tracks.putStatic (clock now rfl) now key column value
  | delete now key =>
      cases performed
      exact tracks.delete (clock now rfl) now key
  | flush medium =>
      unfold Session.perform at performed
      dsimp only at performed
      split at performed
      · cases performed
      · rename_i summary middle ended flushed
        cases performed
        exact tracks.flush (keeps medium rfl) (units medium rfl) flushed

/-- A session and its ledger stay together over all actions. -/
theorem performAll (tracks : Tracks ledger settings session store.disk)
    {actions : List Session.Action}
    (clock : ∀ action ∈ actions, ∀ now, action.reading? = some now →
      max now.toInt ledger.last.toInt + actions.length < Int64.maxValue.toInt)
    (keeps : ∀ medium, .flush medium ∈ actions →
      ∀ component, (medium.sink component).keeps = true)
    (units : ∀ front medium back before middle, actions = front ++ .flush medium :: back →
      session.performAll store front = .ok (before, middle) →
      ∀ partition ∈ before.memtable.toList, partition.UnitsFit)
    (performed : session.performAll store actions = .ok (next, later)) :
    Tracks (ledger.noteAll actions) settings next later.disk := by
  induction actions generalizing session store ledger with
  | nil =>
      cases performed
      exact tracks
  | cons action rest ih =>
      obtain ⟨⟨middle, between⟩, first, further⟩ := Except.bind_eq_ok_iff.1 performed
      have step : Tracks (ledger.note action) settings middle between.disk := by
        apply tracks.perform ?_ ?_ ?_ first
        · intro now reading
          have bound := clock action List.mem_cons_self now reading
          omega
        · rintro medium rfl
          exact keeps medium List.mem_cons_self
        · rintro medium rfl
          exact units [] medium rest session store rfl rfl
      apply ih step ?_ ?_ ?_ further
      · intro other member now reading
        have bound := clock other (List.mem_cons_of_mem _ member) now reading
        rw [List.length_cons] at bound
        rw [last_note, Session.Action.timeAfter]
        cases given : action.reading? with
        | none =>
            rw [Option.elim_none]
            omega
        | some now' =>
            have own := clock action List.mem_cons_self now' given
            rw [List.length_cons] at own
            rw [Option.elim_some, toInt_nextTime (by omega)]
            omega
      · intro medium member
        exact keeps medium (List.mem_cons_of_mem _ member)
      · intro front medium back before middle' split done
        refine units (action :: front) medium back before middle' (by rw [split]; rfl) ?_
        exact Except.bind_eq_ok_iff.2 ⟨(middle, between), first, done⟩

end Tracks

end Ledger

/-- A session writes no row below a clustering. -/
theorem Session.isLastWrite_clustering {actions : List Session.Action} {key : Key} {slot : Slot}
    {value : Bytes} {time : Int64} (last : Session.IsLastWrite actions key slot value time) :
    slot.clustering = [] := by
  obtain ⟨front, action, back, -, wrote, -⟩ := last
  cases action <;> cases wrote <;> rfl

/-- Slots without a clustering are in order if those of rows come first, each by their columns. -/
theorem Slot.order_of_compare {left right : Slot} (same : left.clustering = right.clustering)
    (less : compare left right = .lt) :
    left.isStatic = false ∧ right.isStatic = true ∨
      left.isStatic = right.isStatic ∧ compare left.column right.column = .lt := by
  obtain ⟨isStatic, clustering, column⟩ := left
  obtain ⟨isStatic', clustering', column'⟩ := right
  dsimp only at same ⊢
  subst same
  have parts : (compare isStatic isStatic').then
      ((compare clustering clustering).then (compare column column')) = .lt := less
  have equal : compare clustering clustering = .eq := Std.ReflCmp.compare_self
  rw [equal] at parts
  cases isStatic <;> cases isStatic'
  · exact .inr ⟨rfl, parts⟩
  · exact .inl ⟨rfl, rfl⟩
  · cases parts
  · exact .inr ⟨rfl, parts⟩

/-- A session on an empty folder reads exactly the last writes under every key, in the order of
slots. -/
theorem Session.get_performAll {settings : Settings} {session last : Session}
    {store opened later : Store} {actions : List Session.Action}
    (started : Session.start settings store = (.ok session, opened))
    (listed : opened.disk.names settings.dataDir = .ok [])
    (performed : session.performAll opened actions = .ok (last, later))
    (keeps : ∀ medium, .flush medium ∈ actions →
      ∀ component, (medium.sink component).keeps = true)
    (units : ∀ front medium back before middle, actions = front ++ .flush medium :: back →
      session.performAll opened front = .ok (before, middle) →
      ∀ partition ∈ before.memtable.toList, partition.UnitsFit)
    (clock : ∀ action ∈ actions, ∀ now, action.reading? = some now →
      max now.toInt 0 + actions.length < Int64.maxValue.toInt) :
    (∀ key, ∃ views, last.get later.disk key = .ok views ∧
      (∀ view, view ∈ views ↔
        Session.IsLastWrite actions key view.slot view.value view.timestamp) ∧
      views.Pairwise fun left right =>
        left.slot.isStatic = false ∧ right.slot.isStatic = true ∨
          left.slot.isStatic = right.slot.isStatic ∧
            compare left.slot.column right.slot.column = .lt) ∧
    (∀ key, key ∈ last.keys ↔ ∃ action ∈ actions, action.key? = some key) ∧
    last.keys.Pairwise fun left right => compare left right = .lt := by
  have tracks := (Ledger.Tracks.start started listed).performAll clock keeps units performed
  obtain ⟨folder, shelves, stocked, represented⟩ := tracks.stocked
  refine ⟨fun key => ?_, fun key => ?_, last.pairwise_keys⟩
  · have sources := Session.sources_eq stocked.serves key
    have shown := (represented key).mem_mergedCells
    refine ⟨mergedCells _, by rw [Session.get, sources]; rfl, fun view => ?_, ?_⟩
    · rw [shown, Ledger.written_noteAll]
    · have single (view : CellView) (member : view ∈ mergedCells _) : view.slot.clustering = [] :=
        Session.isLastWrite_clustering (Ledger.written_noteAll.1 ((shown view).1 member))
      refine (pairwise_mergedCells _).imp_of_mem fun left right less => ?_
      exact Slot.order_of_compare ((single _ left).trans (single _ right).symm) less
  · rw [tracks.touched, Ledger.mem_touched_noteAll]
    exact or_iff_left List.not_mem_nil

/-- Writes before and after a flush, and a deletion of another key. -/
def Session.trial : List Session.Action :=
  [.put 5 (.ofBytes [4]) "name" [1], .flush .sound, .putStatic 3 (.ofBytes [4]) "total" [2],
    .delete 3 (.ofBytes [0])]

/-- The settings of a session whose tables get no filter. -/
def Session.trialSettings : Settings := { dataDir := "tables", falsePositiveChance := 1.0 }

/-- A session on a new disk. -/
def Session.trialStart : Session × Store :=
  ((Session.start trialSettings ⟨.empty, []⟩).1.toOption.getD default,
    (Session.start trialSettings ⟨.empty, []⟩).2)

/-- The session after all actions of the trial. -/
def Session.trialEnd : Session × Store :=
  (trialStart.1.performAll trialStart.2 trial).toOption.getD default

theorem Session.get_performAll_trial :
    Session.start trialSettings ⟨.empty, []⟩ = (.ok trialStart.1, trialStart.2) ∧
      trialStart.1.performAll trialStart.2 trial = .ok trialEnd ∧
      (∀ key, key ∈ trialEnd.1.keys ↔ ∃ action ∈ trial, action.key? = some key) ∧
      ∃ views, trialEnd.1.get trialEnd.2.disk (.ofBytes [4]) = .ok views ∧ ∀ view, view ∈ views ↔
        Session.IsLastWrite trial (.ofBytes [4]) view.slot view.value view.timestamp := by
  have started : Session.start trialSettings ⟨.empty, []⟩ = (.ok trialStart.1, trialStart.2) :=
    Prod.ext (Except.eq_ok_getD (by decide +kernel)) rfl
  have performed : trialStart.1.performAll trialStart.2 trial = .ok trialEnd :=
    Except.eq_ok_getD (by decide +kernel)
  have keeps : ∀ medium, .flush medium ∈ trial →
      ∀ component, (medium.sink component).keeps = true := by
    intro medium member component
    have same : medium = .sound := by simpa [trial] using member
    rw [same]
    rfl
  have units : ∀ front medium back before middle, trial = front ++ .flush medium :: back →
      trialStart.1.performAll trialStart.2 front = .ok (before, middle) →
      ∀ partition ∈ before.memtable.toList, partition.UnitsFit := by
    intro front medium back before middle split done
    have first : front = trial.take 1 := by
      rcases front with - | ⟨first, - | ⟨second, - | ⟨third, - | ⟨fourth, rest⟩⟩⟩⟩
      · cases split
      · cases split
        rfl
      · cases split
      · cases split
      · have length := congrArg List.length split
        simp [trial] at length
    rw [first] at done
    have fits : ((trialStart.1.performAll trialStart.2 (trial.take 1)).toOption.all
        fun reached => reached.1.memtable.toList.all fun partition =>
          decide partition.UnitsFit) = true := by decide +kernel
    rw [done] at fits
    simpa [Except.toOption] using fits
  have clock : ∀ action ∈ trial, ∀ now, action.reading? = some now →
      max now.toInt 0 + trial.length < Int64.maxValue.toInt := by
    have below : ∀ action ∈ trial, action.reading?.all fun now =>
        decide (max now.toInt 0 + trial.length < Int64.maxValue.toInt) := by decide +kernel
    intro action member now reading
    have bound := below action member
    rw [reading] at bound
    exact of_decide_eq_true bound
  have whole := Session.get_performAll started (by decide +kernel) performed keeps units clock
  exact ⟨started, performed, whole.2.1,
    (whole.1 (.ofBytes [4])).imp fun _ both => ⟨both.1, both.2.1⟩⟩

end SortedTable

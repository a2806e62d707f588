import SortedTable.Proofs.Session.Linear
import SortedTable.Proofs.Session.Tables

namespace SortedTable

namespace Session

variable {settings : Settings} {folder : Path} {session next last : Session} {store later : Store}
  {disk : Disk}

/-- The actions that are no flushes. -/
def writes (actions : List Action) : List Action := actions.filter fun action => action.key?.isSome

/-- What an action at some time adds to the standing of a key. -/
def Action.standing (key : Key) (time : Int64) : Action → Standing
  | .put _ other column value =>
      if other = key then .write ⟨false, [], column⟩ ⟨column, time, some value⟩ else 1
  | .putStatic _ other column value =>
      if other = key then .write ⟨true, [], column⟩ ⟨column, time, some value⟩ else 1
  | .delete _ other => if other = key then .deletion time else 1
  | .flush _ => 1

/-- What actions that come after a time add to the standing of a key. -/
def standingAfter (key : Key) (time : Int64) : List Action → Standing
  | [] => 1
  | action :: rest =>
      action.standing key (action.timeAfter time) * standingAfter key (action.timeAfter time) rest

/-- Flushes add nothing and take no time. -/
theorem standingAfter_writes (key : Key) (time : Int64) (actions : List Action) :
    standingAfter key time (writes actions) = standingAfter key time actions := by
  induction actions generalizing time with
  | nil => rfl
  | cons action rest ih =>
      cases action with
      | put now other column value => exact congrArg (HMul.hMul _) (ih _)
      | putStatic now other column value => exact congrArg (HMul.hMul _) (ih _)
      | delete now other => exact congrArg (HMul.hMul _) (ih _)
      | flush medium => exact (ih time).trans (one_mul _).symm

theorem mem_writes_iff {actions : List Action} {key : Key} :
    (∃ action ∈ writes actions, action.key? = some key) ↔
      ∃ action ∈ actions, action.key? = some key := by
  simp only [writes, List.mem_filter]
  constructor
  · rintro ⟨action, ⟨member, -⟩, own⟩
    exact ⟨action, member, own⟩
  · rintro ⟨action, member, own⟩
    exact ⟨action, ⟨member, by rw [own]; rfl⟩, own⟩

/-- After actions a session is still the one on its folder, and knows and lists what they added. -/
structure Took (settings : Settings) (folder : Path) (session : Session) (disk : Disk)
    (actions : List Action) (next : Session) (later : Disk) : Prop where
  current : next.IsCurrent settings folder later
  time : next.lastTimestamp = actions.foldl Action.timeAfter session.lastTimestamp
  reading : ∀ key, next.reading later key =
    session.reading disk key * .ok (standingAfter key session.lastTimestamp actions)
  keys : ∀ key, key ∈ next.keys ↔
    key ∈ session.keys ∨ ∃ action ∈ actions, action.key? = some key

namespace Took

theorem nil (current : session.IsCurrent settings folder disk) :
    Took settings folder session disk [] session disk where
  current := current
  time := rfl
  reading _ := (mul_one _).symm
  keys _ := by simp

theorem cons {disk' disk'' : Disk} {action : Action} {rest : List Action}
    (first : Took settings folder session disk [action] next disk')
    (others : Took settings folder next disk' rest last disk'') :
    Took settings folder session disk (action :: rest) last disk'' where
  current := others.current
  time := by
    rw [others.time, first.time]
    rfl
  reading key := by
    rw [others.reading, first.reading, first.time, mul_assoc, Reading.ok_mul_ok]
    rfl
  keys key := by
    rw [others.keys, first.keys, or_assoc]
    simp

/-- The contents of a key of the buffer were set. -/
theorem set (current : session.IsCurrent settings folder disk) {action : Action} {key : Key}
    {changed : Memtable} {contents : Contents} {added : Standing}
    (made : changed.partitions = session.memtable.partitions.insert key contents)
    (plain : changed.IsPlain)
    (adds : contents.standing = (session.memtable.contents key).standing * added)
    (own : action.key? = some key)
    (effect : ∀ other, action.standing other (action.timeAfter session.lastTimestamp) =
      if key = other then added else 1) :
    Took settings folder session disk [action]
      { session with
        lastTimestamp := action.timeAfter session.lastTimestamp
        memtable := changed } disk where
  current := ⟨current.same, current.located, plain, current.loaded, current.ordered, current.listed,
    current.earlier⟩
  time := rfl
  reading other := by
    rw [Session.reading_eq current.plain, Session.reading_eq plain, standingAfter, effect, mul_assoc,
      Reading.ok_mul_ok, standingAfter, mul_one, Memtable.contents_of_insert made]
    by_cases same : key = other
    · subst same
      rw [if_pos rfl, if_pos rfl, adds]
    · rw [if_neg same, if_neg same, mul_one]
  keys other := by
    rw [Session.mem_keys_iff, Session.mem_keys_iff]
    dsimp only
    rw [made, Std.TreeMap.mem_insert, Std.LawfulEqOrd.compare_eq_iff_eq]
    simp [own, or_assoc, or_comm]

/-- Every action of a session on a folder only adds its own. -/
theorem perform (current : session.IsCurrent settings folder store.disk) {action : Action}
    (fits : ∀ medium, action = .flush medium → session.FlushFits medium)
    (performed : session.perform store action = .ok (next, later)) :
    Took settings folder session store.disk [action] next later.disk := by
  cases action with
  | put now key column value =>
      cases performed
      have made := session.memtable.partitions_put key []
        ⟨column, session.nextTimestamp now, some value⟩
      have plain := current.plain.put key ⟨column, session.nextTimestamp now, some value⟩
      exact set current made plain (Contents.standing_writeRow _ _) rfl fun _ => rfl
  | putStatic now key column value =>
      cases performed
      have made := session.memtable.partitions_putStatic key
        ⟨column, session.nextTimestamp now, some value⟩
      have plain := current.plain.putStatic key ⟨column, session.nextTimestamp now, some value⟩
      exact set current made plain (Contents.standing_writeStatic _ _) rfl fun _ => rfl
  | delete now key =>
      cases performed
      have marks := isLive_secondsOf (session.nextTimestamp now)
      have made := session.memtable.partitions_deletePartition key
        ⟨session.nextTimestamp now, secondsOf (session.nextTimestamp now)⟩
      have plain := current.plain.deletePartition key marks
      exact set current made plain (Contents.standing_delete _ _) rfl fun _ => rfl
  | flush medium =>
      unfold Session.perform at performed
      dsimp only at performed
      split at performed
      · cases performed
      · rename_i summary middle ended flushed
        cases performed
        obtain ⟨current', time, -, reading, keys⟩ := current.flush (fits medium rfl) flushed
        refine ⟨current', time, fun key => ?_, fun key => ?_⟩
        · exact (reading key).trans (mul_one _).symm
        · rw [keys]
          simp [Action.key?]

end Took

/-- All flushes among the actions fit when their turn comes. -/
def FlushesFit (session : Session) (store : Store) : List Action → Prop
  | [] => True
  | action :: rest =>
      (∀ medium, action = .flush medium → session.FlushFits medium) ∧
        ∀ next later, session.perform store action = .ok (next, later) → next.FlushesFit later rest

/-- A session on a folder takes all actions as they come. -/
theorem Took.performAll (current : session.IsCurrent settings folder store.disk)
    {actions : List Action} (fit : session.FlushesFit store actions)
    (performed : session.performAll store actions = .ok (last, later)) :
    Took settings folder session store.disk actions last later.disk := by
  induction actions generalizing session store with
  | nil =>
      cases performed
      exact .nil current
  | cons action rest ih =>
      obtain ⟨⟨middle, between⟩, first, further⟩ := Except.bind_eq_ok_iff.1 performed
      have step := Took.perform current fit.1 first
      exact step.cons (ih step.current (fit.2 middle between first) further)

/-- Sessions with the same keys list them alike. -/
theorem keys_congr {left right : Session} (same : ∀ key, key ∈ left.keys ↔ key ∈ right.keys) :
    left.keys = right.keys := by
  unfold keys at same ⊢
  simp only [Std.TreeSet.mem_toList] at same
  exact (Std.TreeSet.Equiv.of_forall_mem_iff same).toList_eq

/-- Where flushes that succeed fall among the same writes makes no difference to what is read. -/
theorem get_eq_of_writes {settings : Settings} {session left right : Session}
    {store opened leftStore rightStore : Store} {names : List String} {actions others : List Action}
    (started : Session.start settings store = (.ok session, opened))
    (listed : opened.disk.names settings.dataDir = .ok names)
    (distinct : Set.InjOn Descriptor.generation
      {table | table ∈ Descriptor.committed settings.dataDir names})
    (same : writes actions = writes others)
    (fit : session.FlushesFit opened actions) (fit' : session.FlushesFit opened others)
    (performed : session.performAll opened actions = .ok (left, leftStore))
    (performed' : session.performAll opened others = .ok (right, rightStore)) :
    (∀ key, left.get leftStore.disk key = right.get rightStore.disk key) ∧
      left.keys = right.keys ∧
      ∀ medium summary last ended again, left.FlushFits medium →
        left.flush medium leftStore = (.ok summary, last, ended) →
        again.validate = .ok () → again.dataDir = settings.dataDir →
        ∃ reopened, Session.start again ended = (.ok reopened, ended) ∧
          (∀ key, reopened.get ended.disk key = left.get leftStore.disk key) ∧
          reopened.keys = left.keys := by
  obtain ⟨folder, current, -⟩ := isCurrent_of_ofDisk (ofDisk_of_start started) listed distinct
  have took := Took.performAll current fit performed
  have took' := Took.performAll current fit' performed'
  refine ⟨fun key => get_congr ?_, keys_congr fun key => ?_, ?_⟩
  · rw [took.reading, took'.reading, ← standingAfter_writes, same, standingAfter_writes]
  · rw [took.keys, took'.keys, ← mem_writes_iff, same, mem_writes_iff]
  · intro medium summary last ended again fits flushed valid shared
    obtain ⟨current', -, empty, reading, keys⟩ := took.current.flush fits flushed
    obtain ⟨reopened, started', current'', empty'⟩ := current'.restart valid shared
    obtain ⟨reading', keys'⟩ := current'.congr current'' shared empty empty'
    refine ⟨reopened, started', fun key => get_congr ?_, keys_congr fun key => ?_⟩
    · rw [reading', reading]
    · rw [keys', keys]

/-- The session that is started again on the folder of the trial. -/
def trialAgain : Session × Store :=
  ((Session.start trialSettings trialEnd.2).1.toOption.getD default,
    (Session.start trialSettings trialEnd.2).2)

/-- The names that the trial leaves in its folder. -/
def trialNames : List String :=
  (trialAgain.2.disk.names trialSettings.dataDir).toOption.getD []

/-- A write at the time of one that is in a table, a deletion, and a flush. -/
def sequel : List Action :=
  [.put 5 (.ofBytes [4]) "name" [7], .delete 2 (.ofBytes [0]), .flush .sound]

/-- The session after all actions of the sequel. -/
def sequelEnd : Session × Store :=
  (trialAgain.1.performAll trialAgain.2 sequel).toOption.getD default

/-- The session after the sequel without its flush. -/
def sequelUnflushed : Session :=
  (trialAgain.1.put 5 (.ofBytes [4]) "name" [7]).delete 2 (.ofBytes [0])

/-- The sequel reads the same with and without its flush, and so does a session that is started
behind it. -/
theorem get_eq_of_writes_sequel :
    trialAgain.1.performAll trialAgain.2 sequel = .ok sequelEnd ∧
      trialAgain.1.performAll trialAgain.2 (writes sequel) = .ok (sequelUnflushed, trialAgain.2) ∧
      (∀ key, sequelEnd.1.get sequelEnd.2.disk key =
        sequelUnflushed.get trialAgain.2.disk key) ∧
      sequelEnd.1.keys = sequelUnflushed.keys ∧
      ∃ reopened, Session.start trialSettings sequelEnd.2 = (.ok reopened, sequelEnd.2) ∧
        (∀ key, reopened.get sequelEnd.2.disk key = sequelEnd.1.get sequelEnd.2.disk key) ∧
        reopened.keys = sequelEnd.1.keys := by
  -- all runs are evaluated at once, so that none is evaluated twice
  have evaluated : (Session.start trialSettings trialEnd.2).1.toOption.isSome = true ∧
      (trialAgain.2.disk.names trialSettings.dataDir).toOption.isSome = true ∧
      Descriptor.committed trialSettings.dataDir trialNames = [⟨"tables", 1, .nb⟩] ∧
      (∀ partition ∈ sequelUnflushed.memtable.toList, partition.UnitsFit) ∧
      (trialAgain.1.performAll trialAgain.2 sequel).toOption.isSome = true ∧
      sequelEnd.1.memtable.isEmpty = true ∧
      ∀ partition ∈ sequelEnd.1.memtable.toList, partition.UnitsFit := by decide +kernel
  obtain ⟨started, listed, single, units, performed, empty, units'⟩ := evaluated
  have started : Session.start trialSettings trialEnd.2 = (.ok trialAgain.1, trialAgain.2) :=
    Prod.ext (Except.eq_ok_getD started) rfl
  have listed : trialAgain.2.disk.names trialSettings.dataDir = .ok trialNames :=
    Except.eq_ok_getD listed
  have performed : trialAgain.1.performAll trialAgain.2 sequel = .ok sequelEnd :=
    Except.eq_ok_getD performed
  have performed' : trialAgain.1.performAll trialAgain.2 (writes sequel) =
      .ok (sequelUnflushed, trialAgain.2) := rfl
  have distinct : Set.InjOn Descriptor.generation
      {table | table ∈ Descriptor.committed trialSettings.dataDir trialNames} := by
    rw [single]
    simp
  have fit : trialAgain.1.FlushesFit trialAgain.2 sequel := by
    refine ⟨nofun, fun next later wrote => ?_⟩
    cases wrote
    refine ⟨nofun, fun next later deleted => ?_⟩
    cases deleted
    refine ⟨fun medium same => ?_, fun _ _ _ => trivial⟩
    cases same
    exact ⟨fun _ => rfl, units⟩
  have fit' : trialAgain.1.FlushesFit trialAgain.2 (writes sequel) :=
    ⟨nofun, fun _ _ _ => ⟨nofun, fun _ _ _ => trivial⟩⟩
  have flushed : sequelEnd.1.flush .sound sequelEnd.2 = (.ok none, sequelEnd) := if_pos empty
  have same : writes sequel = writes (writes sequel) := rfl
  obtain ⟨get, keys, again⟩ :=
    get_eq_of_writes started listed distinct same fit fit' performed performed'
  exact ⟨performed, performed', get, keys,
    again .sound none sequelEnd.1 sequelEnd.2 trialSettings ⟨fun _ => rfl, units'⟩ flushed rfl rfl⟩

end Session

end SortedTable

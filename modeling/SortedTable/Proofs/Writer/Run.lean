import SortedTable.Proofs.Disk.Folders
import SortedTable.Proofs.Writer.Isolation
import SortedTable.Proofs.Writer.Notices
import SortedTable.Proofs.Writer.Script
import SortedTable.Proofs.Writer.Shown
import SortedTable.Writer.Run

namespace SortedTable

theorem Stage.run_eq_none_iff {setting : Setting} {stage later : Stage} {script : Script} :
    stage.run setting script = (later, none) ↔
      stage.performAll setting script.steps = (later, none) ∧ script.fault = none := by
  rw [Stage.run]
  split
  · rename_i failed
    rw [failed]
    constructor
    · intro same
      cases same
    · intro both
      cases both.1
  · rename_i done
    rw [done, Prod.mk.injEq, Prod.mk.injEq]
    constructor
    · intro both
      exact ⟨⟨both.1, rfl⟩, both.2⟩
    · intro both
      exact ⟨both.1.1, both.2⟩

namespace WriterPlan

/-- What the writer of a plan does not change. -/
def setting (plan : WriterPlan) : Setting :=
  ⟨plan.descriptor, plan.medium, plan.settings.sync, plan.observers⟩

/-- What is done before the first partition. -/
def opening (plan : WriterPlan) : Script :=
  .ofSteps [.create .data, .create .index, .notify (.begin plan.expected)]

/-- The stage on which a writer begins: the folder of its table was made. -/
def ground (plan : WriterPlan) (store : Store) : Stage :=
  ⟨(store.createFolders plan.descriptor.directory).2, [], []⟩

/-- The disk on which a writer begins. -/
def site (plan : WriterPlan) (store : Store) : Disk := (plan.ground store).store.disk

/-- The writer of a plan before its first partition. -/
def writer (plan : WriterPlan) (filter : Filter) (stage : Stage) : Writer where
  setting := plan.setting
  blockSize := plan.settings.blockSize
  created := stage.created
  outputs := stage.outputs
  progress := some ⟨filter, .empty plan.settings.falsePositiveChance.toBits, none⟩

/-- A plan for a table without a filter. -/
def unfiltered : WriterPlan where
  descriptor := ⟨"tables", 1, .current⟩
  settings := { falsePositiveChance := 1.0 }

theorem addsFolders_site (plan : WriterPlan) (store : Store) :
    store.disk.AddsFolders (plan.site store) := by
  change store.disk.AddsFolders (store.changeAll _).disk
  rw [Store.disk_changeAll]
  exact Disk.addsFolders_createFolders store.disk plan.descriptor.directory

/-- A folder that is there is not changed before the first partition. -/
theorem site_of_locate {plan : WriterPlan} {store : Store} {folder : Path}
    (located : store.disk.locate plan.descriptor.directory = .ok (folder, .folder)) :
    plan.site store = store.disk := by
  have found : store.disk.find plan.descriptor.directory = .ok .folder :=
    Disk.find_of_locate located
  change (store.changeAll (store.disk.createFolders plan.descriptor.directory).1).disk = store.disk
  rw [Disk.createFolders_of_find found]
  rfl

theorem deliveries_ground (plan : WriterPlan) (store : Store) :
    (plan.ground store).store.deliveries = store.deliveries :=
  store.deliveries_changeAll _

variable {plan : WriterPlan} {store : Store} {stage : Stage} {folder : Path}

/-- A writer that was stopped at once had done nothing, or the folder of its table is there. -/
theorem resides_of_opening {outcome : Option TableError}
    (ran : (plan.ground store).run plan.setting plan.opening = (stage, outcome)) :
    (∃ error, outcome = some error ∧ stage = plan.ground store) ∨
      ∃ folder, plan.descriptor.ResidesIn (plan.site store) folder := by
  cases first : (plan.ground store).create plan.setting .data with
  | mk next fault =>
  cases fault with
  | none =>
      right
      change ∃ folder, plan.setting.descriptor.ResidesIn (plan.ground store).store.disk folder
      exact Stage.resides_of_create first
  | some error =>
      have all : (plan.ground store).run plan.setting plan.opening = (next, some error) := by
        have steps : (plan.ground store).performAll plan.setting plan.opening.steps =
            (next, some error) := by
          unfold opening Script.ofSteps
          rw [Stage.performAll, Stage.perform, first]
        rw [Stage.run, steps]
      rw [all] at ran
      cases ran
      exact .inl ⟨error, rfl, Stage.eq_of_create_fails first⟩

theorem steps_opening (plan : WriterPlan) :
    Drafts.empty.steps plan.opening.steps = some (.filling [] []) := by
  refine congrArg some ?_
  funext component
  cases component <;> rfl

/-- No file of the table was made yet where a writer begins. -/
theorem stands_ground (resides : plan.descriptor.ResidesIn (plan.site store) folder) :
    (plan.ground store).Stands plan.setting folder (plan.site store) .empty :=
  ⟨resides, fun _ isOpen => isOpen, fun _ held => absurd rfl held, nofun⟩

/-- The files of a table without partitions have their temporary names. -/
theorem stands_of_opening (resides : plan.descriptor.ResidesIn (plan.site store) folder)
    (ran : (plan.ground store).run plan.setting plan.opening = (stage, none)) :
    stage.Stands plan.setting folder (plan.site store) (.filling [] []) :=
  (plan.stands_ground resides).performAll plan.steps_opening (Stage.run_eq_none_iff.1 ran).1

/-- The files of a table without partitions are empty, whatever had their names before. -/
theorem follows_of_opening (resides : plan.descriptor.ResidesIn (plan.site store) folder)
    (apart : plan.descriptor.IsApart (plan.site store))
    (ran : (plan.ground store).run plan.setting plan.opening = (stage, none)) :
    stage.Follows plan.setting folder (plan.site store) (.filling [] []) := by
  have start : (plan.ground store).Follows plan.setting folder (plan.site store) .empty :=
    ⟨plan.stands_ground resides, apart folder resides, fun _ _ _ => .inr rfl, fun _ _ => rfl, nofun⟩
  exact start.performAll plan.steps_opening (Stage.run_eq_none_iff.1 ran).1

theorem shows_of_opening (resides : plan.descriptor.ResidesIn (plan.site store) folder)
    (vacant : plan.descriptor.IsVacant (plan.site store))
    (ran : (plan.ground store).run plan.setting plan.opening = (stage, none)) :
    stage.Shows plan.setting folder (plan.site store) (.filling [] []) :=
  ⟨follows_of_opening resides vacant.isApart ran, vacant folder resides⟩

end WriterPlan

/-- A partition with nothing but its deletion. -/
def Partition.tombstone : Partition := ⟨.ofBytes [0], ⟨7, 1⟩, none, []⟩

/-- Three partitions in order: a row below a static row, nothing, and a deletion. -/
def Partition.triple : List Partition :=
  [⟨.ofBytes [4], .live, some (.ofCells [] .live [⟨"total", 2, some [9]⟩]),
      [.row (.ofCells [[1], [2]] .live [⟨"name", 1, some [7, 8]⟩])]⟩,
    ⟨.ofBytes [5], .live, none, []⟩,
    ⟨.ofBytes [0], ⟨7, 1⟩, none, []⟩]

namespace Writer

/-- The ways in which building a writer can end. -/
inductive Builds (plan : WriterPlan) (store : Store) : Except TableError Writer × Store → Prop
  | refused (error : TableError) (later : Store)
      (same : later = store ∨ later = (plan.ground store).store) :
      Builds plan store (.error error, later)
  | broken (stage : Stage) (error : TableError)
      (ran : (plan.ground store).run plan.setting plan.opening = (stage, some error)) :
      Builds plan store (.error error, stage.clear plan.setting)
  | built (filter : Filter) (stage : Stage)
      (made : Filter.forTable plan.expected plan.settings.falsePositiveChance = .ok filter)
      (ran : (plan.ground store).run plan.setting plan.opening = (stage, none)) :
      Builds plan store (.ok (plan.writer filter stage), stage.store)

theorem builds (plan : WriterPlan) (store : Store) : Builds plan store (build plan store) := by
  have prepared : (∃ error later, prepare plan store = (.error error, later) ∧
        (later = store ∨ later = (plan.ground store).store)) ∨
      ∃ filter, prepare plan store = (.ok filter, (plan.ground store).store) ∧
        Filter.forTable plan.expected plan.settings.falsePositiveChance = .ok filter := by
    unfold prepare
    split
    · exact .inl ⟨_, _, rfl, .inl rfl⟩
    · split
      · rename_i made
        exact .inl ⟨_, _, rfl, .inr (congrArg Prod.snd made).symm⟩
      · rename_i made
        obtain rfl := (congrArg Prod.snd made : (plan.ground store).store = _)
        split
        · exact .inl ⟨_, _, rfl, .inr rfl⟩
        · cases sized : Filter.forTable plan.expected plan.settings.falsePositiveChance with
          | error cause => exact .inl ⟨_, _, rfl, .inr rfl⟩
          | ok filter => exact .inr ⟨filter, rfl, rfl⟩
  unfold build
  rcases prepared with ⟨error, later, same, origin⟩ | ⟨filter, same, made⟩
  · rw [same]
    exact .refused error later origin
  · rw [same]
    dsimp only
    split
    · rename_i ran
      exact .broken _ _ ran
    · rename_i ran
      exact .built filter _ made ran

/-- The ways in which giving a partition to a writer can end. -/
inductive Appends (writer : Writer) (partition : Partition) (store : Store) :
    Except TableError (Option Position) × Writer × Store → Prop
  | aborted (ended : writer.progress = none) :
      Appends writer partition store (.error writer.abortedError, writer, store)
  | refused (progress : Progress) (error : TableError) (held : writer.progress = some progress)
      (refusal : refusal? progress partition.key = some error) :
      Appends writer partition store
        (.error error, writer.failed, (writer.stage store).clear writer.setting)
  | skipped (progress : Progress) (held : writer.progress = some progress)
      (allowed : refusal? progress partition.key = none) (empty : partition.isEmpty = true) :
      Appends writer partition store
        (.ok none, { writer with progress := some { progress with lastKey := some partition.key } },
          store)
  | written (progress : Progress) (stage : Stage) (held : writer.progress = some progress)
      (allowed : refusal? progress partition.key = none) (full : partition.isEmpty = false)
      (ran : (writer.stage store).run writer.setting
        (partition.script writer.blockSize writer.nextPosition) = (stage, none)) :
      Appends writer partition store
        (.ok (some writer.nextPosition), writer.onStage stage (Progress.add progress partition),
          stage.store)
  | broken (progress : Progress) (stage : Stage) (error : TableError)
      (held : writer.progress = some progress)
      (ran : (writer.stage store).run writer.setting
        (partition.script writer.blockSize writer.nextPosition) = (stage, some error)) :
      Appends writer partition store (.error error, writer.failed, stage.clear writer.setting)

theorem appends (writer : Writer) (partition : Partition) (store : Store) :
    Appends writer partition store (writer.append partition store) := by
  unfold append
  split
  · rename_i ended
    exact .aborted ended
  · rename_i progress held
    split
    · rename_i error refusal
      exact .refused progress error held refusal
    · rename_i allowed
      split
      · rename_i empty
        exact .skipped progress held allowed empty
      · rename_i full
        dsimp only
        split
        · rename_i stage ran
          exact .written progress stage held allowed (Bool.eq_false_iff.2 full) ran
        · rename_i stage error ran
          exact .broken progress stage error held ran

end Writer

/-- What is done to commit a table: nothing but to fail if it has no partitions. -/
def Progress.ending (progress : Progress) (version : Version) : Script :=
  if progress.statistics.partitions = 0 then ⟨[], some .empty⟩
  else commitScript version progress.filter progress.statistics

theorem Progress.tells_ending (progress : Progress) (version : Version) :
    (progress.ending version).Tells [] := by
  unfold ending
  split
  · exact ⟨List.prefix_rfl, nofun⟩
  · exact tells_commitScript version progress.filter progress.statistics

/-- A partition that was written adds its encoding to the data and its entry to the index. -/
theorem Partition.steps_script {partition : Partition} {blockSize : UInt64} {position : Position}
    (ended : (partition.script blockSize position).fault = none) (data index : Bytes) :
    ∃ written : partition.Written blockSize position,
      (Drafts.filling data index).steps (partition.script blockSize position).steps =
        some (.filling (data ++ written.encoding.bytes) (index ++ written.entry.flatten)) := by
  obtain ⟨written, fills⟩ := partition.fills_script ended
  refine ⟨written, ?_⟩
  rw [Drafts.steps_filling fills.only, fills.data, fills.index]

namespace Writer

/-- The result of opening a committed table, if that was asked for. -/
def Reopens (setting : Setting) (progress : Progress) (disk : Disk) :
    Conclusion → Option Reader → Prop
  | .finish, opened => opened = none
  | .finishAndOpen, opened => ∃ reader, opened = some reader ∧
      Reader.ofParts setting.medium disk setting.descriptor progress.filter progress.statistics =
        .ok reader
  | .abort, _ => False

/-- The ways in which a writer can end. -/
inductive Concludes (writer : Writer) (conclusion : Conclusion) (store : Store) :
    Option (Except TableError (Option Reader)) × Store → Prop
  | ended (result : Option (Except TableError (Option Reader))) (ended : writer.progress = none)
      (answer : result = if conclusion = .abort then none else some (.error writer.abortedError)) :
      Concludes writer conclusion store (result, store)
  | aborted (progress : Progress) (given : conclusion = .abort)
      (held : writer.progress = some progress) :
      Concludes writer conclusion store (none, (writer.stage store).clear writer.setting)
  | broken (progress : Progress) (error : TableError) (held : writer.progress = some progress)
      (reason : ((writer.stage store).run writer.setting
        (progress.ending writer.setting.descriptor.version)).2 ≠ none ∨ conclusion = .finishAndOpen) :
      Concludes writer conclusion store (some (.error error),
        ((writer.stage store).run writer.setting
          (progress.ending writer.setting.descriptor.version)).1.clear writer.setting)
  | committed (progress : Progress) (stage : Stage) (opened : Option Reader)
      (held : writer.progress = some progress)
      (ran : (writer.stage store).run writer.setting (commitScript
        writer.setting.descriptor.version progress.filter progress.statistics) = (stage, none))
      (reopens : Reopens writer.setting progress stage.store.disk conclusion opened) :
      Concludes writer conclusion store
        (some (.ok opened), stage.store.deliver writer.setting.observers .complete)

theorem concludes_commitThen {α : Type} (writer : Writer) (conclusion : Conclusion)
    (finished : conclusion ≠ .abort)
    (reopen : Medium → Disk → Descriptor → Filter → Statistics → Except TableError α)
    (opened : α → Option Reader) (store : Store)
    (answers : ∀ progress disk result, reopen writer.setting.medium disk
      writer.setting.descriptor progress.filter progress.statistics = .ok result →
      Reopens writer.setting progress disk conclusion (opened result))
    (fails : ∀ progress : Progress, ∀ disk error, reopen writer.setting.medium disk
      writer.setting.descriptor progress.filter progress.statistics = .error error →
      conclusion = .finishAndOpen) :
    Concludes writer conclusion store
      (some ((writer.commitThen reopen store).1.map opened), (writer.commitThen reopen store).2) := by
  unfold commitThen
  split
  · rename_i ended
    refine .ended _ ended ?_
    rw [if_neg finished]
    rfl
  · rename_i progress held
    dsimp only
    split
    · rename_i stage error ran
      obtain rfl : (_ : Stage) = stage := congrArg Prod.fst ran
      refine .broken progress error held (.inl fun none' => ?_)
      cases (congrArg Prod.snd ran).symm.trans none'
    · rename_i stage ran
      split
      · rename_i error unopened
        obtain rfl : (_ : Stage) = stage := congrArg Prod.fst ran
        exact .broken progress error held (.inr (fails _ _ _ unopened))
      · rename_i result reopened
        have some' : ¬progress.statistics.partitions = 0 := by
          intro none'
          rw [if_pos none'] at ran
          cases (Stage.run_eq_none_iff.1 ran).2
        rw [if_neg some'] at ran
        exact .committed progress stage (opened result) held ran (answers _ _ _ reopened)

theorem concludes (writer : Writer) (conclusion : Conclusion) (store : Store) :
    Concludes writer conclusion store (writer.conclude conclusion store) := by
  cases conclusion with
  | finish =>
      exact concludes_commitThen writer .finish nofun (fun _ _ _ _ _ => .ok ()) (fun _ => none) store
        (fun _ _ _ _ => rfl) nofun
  | finishAndOpen =>
      exact concludes_commitThen writer .finishAndOpen nofun Reader.ofParts some store
        (fun _ _ reader reopened => ⟨reader, rfl, reopened⟩) fun _ _ _ _ => rfl
  | abort =>
      change Concludes writer .abort store (none, writer.abort store)
      unfold abort
      cases held : writer.progress with
      | none => exact .ended none held rfl
      | some progress => exact .aborted progress rfl held

end Writer

namespace WriterPlan

variable {plan : WriterPlan} {store later : Store}

theorem run_of_refused {error : TableError} (refused : Writer.build plan store = (.error error, later))
    (partitions : List Partition) (conclusion : Conclusion) :
    plan.run partitions conclusion store = ⟨.error error, [], none, later⟩ := by
  unfold run
  rw [refused]

theorem run_of_built {writer : Writer} (built : Writer.build plan store = (.ok writer, later))
    (partitions : List Partition) (conclusion : Conclusion) :
    plan.run partitions conclusion store =
      let appended := writer.appendEach later partitions
      let ended := appended.2.1.conclude conclusion appended.2.2
      ⟨.ok (), appended.1, ended.1, ended.2⟩ := by
  unfold run
  rw [built]

/-- The ways in which a run can go: no writer is built, or one is built in a folder that is there. -/
inductive Runs (plan : WriterPlan) (store : Store) (partitions : List Partition)
    (conclusion : Conclusion) : WriterRun → Prop
  | refused (error : TableError) (later : Store)
      (origin : later = store ∨ later = (plan.ground store).store) :
      Runs plan store partitions conclusion ⟨.error error, [], none, later⟩
  | broken (stage : Stage) (error : TableError)
      (ran : (plan.ground store).run plan.setting plan.opening = (stage, some error)) :
      Runs plan store partitions conclusion ⟨.error error, [], none, stage.clear plan.setting⟩
  | built (filter : Filter) (stage : Stage) (folder : Path)
      (made : Filter.forTable plan.expected plan.settings.falsePositiveChance = .ok filter)
      (ran : (plan.ground store).run plan.setting plan.opening = (stage, none))
      (resides : plan.descriptor.ResidesIn (plan.site store) folder)
      (same : Writer.build plan store = (.ok (plan.writer filter stage), stage.store)) :
      Runs plan store partitions conclusion
        (let appended := (plan.writer filter stage).appendEach stage.store partitions
        let ended := appended.2.1.conclude conclusion appended.2.2
        ⟨.ok (), appended.1, ended.1, ended.2⟩)

theorem runs (plan : WriterPlan) (store : Store) (partitions : List Partition)
    (conclusion : Conclusion) :
    Runs plan store partitions conclusion (plan.run partitions conclusion store) := by
  have possible := Writer.builds plan store
  cases outcome : Writer.build plan store with
  | mk result later =>
  rw [outcome] at possible
  cases possible with
  | refused error later origin =>
      rw [run_of_refused outcome]
      exact .refused error later origin
  | broken stage error ran =>
      rw [run_of_refused outcome]
      exact .broken stage error ran
  | built filter stage made ran =>
      obtain ⟨error, failed, -⟩ | ⟨folder, resides⟩ := resides_of_opening ran
      · cases failed
      · rw [run_of_built outcome]
        exact .built filter stage folder made ran resides outcome

end WriterPlan

end SortedTable

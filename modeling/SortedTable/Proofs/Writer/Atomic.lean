import SortedTable.Proofs.Writer.Protocol

namespace SortedTable

namespace Descriptor

/-- The path is that of a file of the table, or lies below one. -/
def Holds (descriptor : Descriptor) (disk : Disk) (path : Path) : Prop :=
  ∃ folder, descriptor.ResidesIn disk folder ∧ descriptor.Owns folder path

/-- Of all names of the table exactly the final ones of these components are taken. -/
structure HasExactly (descriptor : Descriptor) (disk : Disk) (folder : Path)
    (components : List Component) : Prop extends HasAll descriptor disk folder components where
  absent : ∀ component, component ∉ components →
    disk.node? (folder ++ [descriptor.nameOf true component]) = none
  finished : ∀ component, disk.node? (folder ++ [descriptor.nameOf false component]) = none

/-- The names of a table that are vacant where its folder was made were vacant before. -/
theorem IsVacant.of_addsFolders {descriptor : Descriptor} {disk later : Disk}
    (vacant : descriptor.IsVacant later) (adds : disk.AddsFolders later) :
    descriptor.IsVacant disk := by
  intro folder resides isFinal component
  apply adds.node?_eq_none
  exact vacant folder (resides.of_isOpen fun _ => adds.isOpen) isFinal component

end Descriptor

namespace Writer

/-- A writer has made nothing but its own files, and if it has failed nothing of them is left. -/
structure IsSecluded (plan : WriterPlan) (folder : Path) (base : Disk) (writer : Writer)
    (store : Store) : Prop where
  setting : writer.setting = plan.setting
  ended : writer.progress = none →
    plan.descriptor.Spares folder base store.disk ∧ plan.descriptor.IsVacant store.disk
  isolated : ∀ progress, writer.progress = some progress →
    (writer.stage store).Isolated plan.setting.descriptor folder base

namespace IsSecluded

variable {plan : WriterPlan} {folder : Path} {base : Disk} {writer : Writer} {store : Store}

theorem failed (secluded : IsSecluded plan folder base writer store) {stage : Stage}
    (isolated : stage.Isolated plan.setting.descriptor folder base) :
    IsSecluded plan folder base writer.failed (stage.clear writer.setting) where
  setting := secluded.setting
  ended _ := by
    rw [secluded.setting]
    exact isolated.clear
  isolated _ := nofun

/-- Whatever becomes of a partition, the writer stays secluded. -/
theorem append (secluded : IsSecluded plan folder base writer store) (partition : Partition) :
    IsSecluded plan folder base (writer.append partition store).2.1
      (writer.append partition store).2.2 := by
  have possible := writer.appends partition store
  generalize writer.append partition store = outcome at possible
  cases possible with
  | aborted ended => exact secluded
  | refused progress error held refusal => exact secluded.failed (secluded.isolated progress held)
  | skipped progress held allowed empty =>
      exact ⟨secluded.setting, nofun, fun _ _ => secluded.isolated progress held⟩
  | written progress stage held allowed full ran =>
      rw [secluded.setting] at ran
      have isolated := (secluded.isolated progress held).run
        (partition.script writer.blockSize writer.nextPosition)
      rw [ran] at isolated
      exact ⟨secluded.setting, nofun, fun _ _ => isolated⟩
  | broken progress stage error held ran =>
      rw [secluded.setting] at ran
      have isolated := (secluded.isolated progress held).run
        (partition.script writer.blockSize writer.nextPosition)
      rw [ran] at isolated
      exact secluded.failed isolated

theorem appendEach (secluded : IsSecluded plan folder base writer store)
    (partitions : List Partition) :
    IsSecluded plan folder base (writer.appendEach store partitions).2.1
      (writer.appendEach store partitions).2.2 := by
  induction partitions generalizing writer store with
  | nil => exact secluded
  | cons partition rest ih => exact ih (secluded.append partition)

end IsSecluded

/-- The stage of a committed table has exactly its files under its names. -/
theorem hasExactly_of_shows {plan : WriterPlan} {folder : Path} {base : Disk} {stage : Stage}
    {filter : Filter} {data index statistics contents : Bytes}
    (shows' : stage.Shows plan.setting folder base (.committed data index statistics contents
      (Drafts.filterBytes plan.descriptor.version filter))) :
    plan.descriptor.HasExactly stage.store.disk folder (tableComponents filter ++ [.contents]) where
  toHasAll := hasAll_of_stands shows'.toStands
  absent component missing := by
    apply shows'.bare true component
    intro draft drafted
    exact absurd (Drafts.committed_ne_none_iff.1 (by rw [drafted]; exact nofun)) missing
  finished component := by
    apply shows'.bare false component
    intro draft drafted
    rw [(Drafts.isFinal_of_committed drafted).1]
    exact nofun

/-- Behind the final name of a component of a committed table are the bytes of its draft. -/
theorem file?_of_shows {setting : Setting} {folder : Path} {base : Disk} {stage : Stage}
    {filter : Option Bytes} {data index statistics contents : Bytes}
    (shows' : stage.Shows setting folder base
      (.committed data index statistics contents filter)) (component : Component) {draft : Draft}
    (drafted : Drafts.committed data index statistics contents filter component = some draft)
    (keeps : (setting.medium.sink component).keeps = true) :
    stage.store.disk.file? (folder ++ [setting.descriptor.nameOf true component]) =
      some draft.bytes := by
  obtain ⟨id, node⟩ := shows'.placed component draft drafted
  obtain ⟨final, closed⟩ := Drafts.isFinal_of_committed drafted
  have content := (shows'.shown component draft id drafted node).closed closed keeps
  rw [final] at node
  rw [Disk.file?_of_node? node, content]

/-- Ending a writer commits exactly the files of its table or leaves none of them. -/
theorem IsSecluded.conclude {plan : WriterPlan} {folder : Path} {base : Disk} {first : Filter}
    {writer : Writer} {store : Store} (secluded : IsSecluded plan folder base writer store)
    (filling : IsFilling plan.setting (Stage.Shows plan.setting folder base) first writer store)
    (conclusion : Conclusion) :
    plan.descriptor.Spares folder base (writer.conclude conclusion store).2.disk ∧
      ((∃ opened, (writer.conclude conclusion store).1 = some (.ok opened)) ∧
        plan.descriptor.HasExactly (writer.conclude conclusion store).2.disk folder
          (tableComponents first ++ [.contents]) ∧
        ((plan.medium.sink .contents).keeps = true →
          (writer.conclude conclusion store).2.disk.file?
              (folder ++ [plan.descriptor.nameOf true .contents]) =
            some (Bytes.ofText (contentsText (tableComponents first)))) ∨
      ((conclusion = .abort ∧ (writer.conclude conclusion store).1 = none ∨
          ∃ error, (writer.conclude conclusion store).1 = some (.error error)) ∧
        plan.descriptor.IsVacant (writer.conclude conclusion store).2.disk)) := by
  have possible := writer.concludes conclusion store
  generalize writer.conclude conclusion store = outcome at possible
  cases possible with
  | ended result ended answer =>
      obtain ⟨spares, vacant⟩ := secluded.ended ended
      refine ⟨spares, .inr ⟨?_, vacant⟩⟩
      by_cases given : conclusion = .abort
      · rw [if_pos given] at answer
        exact .inl ⟨given, answer⟩
      · rw [if_neg given] at answer
        exact .inr ⟨_, answer⟩
  | aborted progress given held =>
      rw [secluded.setting]
      obtain ⟨spares, vacant⟩ := (secluded.isolated progress held).clear
      exact ⟨spares, .inr ⟨.inl ⟨given, rfl⟩, vacant⟩⟩
  | broken progress error held =>
      rw [secluded.setting]
      obtain ⟨spares, vacant⟩ := ((secluded.isolated progress held).run
        (progress.ending plan.setting.descriptor.version)).clear
      exact ⟨spares, .inr ⟨.inr ⟨error, rfl⟩, vacant⟩⟩
  | committed progress stage opened held ran reopens =>
      obtain ⟨same, data, index, fields, -, shows'⟩ :=
        filling.commit (isKept_shows _ _ _) held ran
      rw [secluded.setting] at ran
      have isolated := (secluded.isolated progress held).run
        (commitScript plan.setting.descriptor.version progress.filter progress.statistics)
      rw [ran] at isolated
      have exactly := hasExactly_of_shows shows'
      rw [same] at exactly shows'
      exact ⟨isolated.spares, .inl ⟨⟨opened, rfl⟩, exactly, fun keeps =>
        file?_of_shows shows' .contents rfl keeps⟩⟩

end Writer

namespace WriterPlan

variable {plan : WriterPlan} {store : Store}

/-- A stage that spares all but the names of a table spares all files that the table does not hold. -/
theorem file?_of_spares {folder : Path} {disk : Disk}
    (resides : plan.descriptor.ResidesIn (plan.site store) folder)
    (spares : plan.descriptor.Spares folder (plan.site store) disk) {path : Path}
    (other : ¬plan.descriptor.Holds (plan.site store) path) :
    disk.file? path = store.disk.file? path := by
  rw [spares.file? fun owned => other ⟨folder, resides, owned⟩]
  exact (plan.addsFolders_site store).file? path

/-- The ground of a table whose names are free is isolated. -/
theorem isolated_ground (vacant : plan.descriptor.IsVacant (plan.site store)) {folder : Path}
    (resides : plan.descriptor.ResidesIn (plan.site store) folder) :
    (plan.ground store).Isolated plan.setting.descriptor folder (plan.site store) := by
  change Stage.Isolated plan.descriptor folder (plan.ground store).store.disk
    ⟨(plan.ground store).store, [], []⟩
  exact .start resides vacant

/-- Where nothing was created there is nothing to remove. -/
theorem disk_clear_ground (plan : WriterPlan) (store : Store) :
    ((plan.ground store).clear plan.setting).disk = plan.site store := rfl

/-- Of a writer that could not begin nothing is left. -/
theorem clear_of_opening (vacant : plan.descriptor.IsVacant (plan.site store)) {stage : Stage}
    {error : TableError}
    (ran : (plan.ground store).run plan.setting plan.opening = (stage, some error)) :
    (∀ path, ¬plan.descriptor.Holds (plan.site store) path →
      (stage.clear plan.setting).disk.file? path = store.disk.file? path) ∧
    plan.descriptor.IsVacant (stage.clear plan.setting).disk ∧
    (stage.clear plan.setting).deliveries = store.deliveries := by
  have told := deliveries_opening ran
  rw [if_neg nofun, List.append_nil] at told
  have silent := (Stage.deliveries_clear plan.setting stage).trans told
  rcases resides_of_opening ran with ⟨-, -, rfl⟩ | ⟨folder, resides⟩
  · rw [disk_clear_ground]
    exact ⟨fun path _ => (plan.addsFolders_site store).file? path, vacant, silent⟩
  · have after := (isolated_ground vacant resides).run plan.opening
    rw [ran] at after
    obtain ⟨spares, empty⟩ := after.clear
    exact ⟨fun path other => file?_of_spares resides spares other, empty, silent⟩

/-- A writer that was built where no name of its table was taken is secluded, with empty files. -/
theorem start_of_opening (filter : Filter)
    (vacant : plan.descriptor.IsVacant (plan.site store)) {folder : Path}
    (resides : plan.descriptor.ResidesIn (plan.site store) folder) {stage : Stage}
    (ran : (plan.ground store).run plan.setting plan.opening = (stage, none)) :
    Writer.IsSecluded plan folder (plan.site store) (plan.writer filter stage) stage.store ∧
      Writer.IsFilling plan.setting (Stage.Shows plan.setting folder (plan.site store)) filter
        (plan.writer filter stage) stage.store := by
  have begun := (isolated_ground vacant resides).run plan.opening
  rw [ran] at begun
  exact ⟨⟨rfl, nofun, fun _ _ => begun⟩, rfl, fun _ same => by cases same; rfl,
    fun _ _ => ⟨[], [], shows_of_opening resides vacant ran⟩⟩

end WriterPlan

namespace WriterRun

/-- The table was committed: its files are exactly those that the list of contents names. -/
def Commits (run : WriterRun) (plan : WriterPlan) : Prop :=
  run.IsCommitted ∧ ∃ filter folder,
    Filter.forTable plan.expected plan.settings.falsePositiveChance = .ok filter ∧
    plan.descriptor.HasExactly run.store.disk folder (tableComponents filter ++ [.contents]) ∧
    ((plan.medium.sink .contents).keeps = true →
      run.store.disk.file? (folder ++ [plan.descriptor.nameOf true .contents]) =
        some (Bytes.ofText (contentsText (tableComponents filter))))

/-- No file of the table is left, and no observer was told that it is complete. -/
def LeavesNothing (run : WriterRun) (plan : WriterPlan) (conclusion : Conclusion) (store : Store) :
    Prop :=
  ¬run.IsCommitted ∧
    (conclusion = .abort ∨ (∃ error, run.built = .error error) ∨
      ∃ error, run.result = some (.error error)) ∧
    plan.descriptor.IsVacant run.store.disk ∧
    ∃ told, run.store.deliveries = store.deliveries ++ deliveriesTo plan.observers told ∧
      Notice.complete ∉ told

end WriterRun

namespace WriterPlan

/-- Of a run without a writer nothing is left. -/
theorem leavesNothing_of_refused {plan : WriterPlan} {store later : Store} {conclusion : Conclusion}
    {error : TableError} (empty : plan.descriptor.IsVacant later.disk)
    (silent : later.deliveries = store.deliveries) :
    WriterRun.LeavesNothing ⟨.error error, [], none, later⟩ plan conclusion store := by
  refine ⟨nofun, .inr (.inl ⟨error, rfl⟩), empty, [], ?_, List.not_mem_nil⟩
  rw [deliveriesTo_nil, List.append_nil]
  exact silent

/-- A run with a writer commits the table or leaves nothing of it. -/
theorem commits_or_leavesNothing_of_built {plan : WriterPlan} {store : Store} {filter : Filter}
    {stage : Stage} {folder : Path}
    (made : Filter.forTable plan.expected plan.settings.falsePositiveChance = .ok filter)
    (ran : (plan.ground store).run plan.setting plan.opening = (stage, none))
    (vacant : plan.descriptor.IsVacant (plan.site store))
    (resides : plan.descriptor.ResidesIn (plan.site store) folder) (partitions : List Partition)
    (conclusion : Conclusion) {run : WriterRun}
    (same : run =
      let appended := (plan.writer filter stage).appendEach stage.store partitions
      let ended := appended.2.1.conclude conclusion appended.2.2
      ⟨.ok (), appended.1, ended.1, ended.2⟩) :
    plan.descriptor.Spares folder (plan.site store) run.store.disk ∧
      (run.Commits plan ∨ run.LeavesNothing plan conclusion store) := by
  obtain ⟨secluded, filling⟩ := start_of_opening filter vacant resides ran
  have further := filling.appendEach (Writer.isKept_shows _ _ _) partitions
  obtain ⟨spares, ending⟩ := (secluded.appendEach partitions).conclude further conclusion
  obtain ⟨told, protocol, delivered⟩ := protocol_of_opening ran filter partitions
  subst same
  refine ⟨spares, ?_⟩
  rcases ending with ⟨⟨opened, committed⟩, exactly, listed⟩ | ⟨unfinished, empty⟩
  · exact .inl ⟨⟨opened, committed⟩, filter, folder, made, exactly, listed⟩
  have stands := further.mono fun _ _ shows' => shows'.toStands
  rcases stands.deliveries_conclude conclusion with ⟨opened, committed, -⟩ | ⟨never, silent⟩
  · rw [committed] at unfinished
    rcases unfinished with ⟨-, none'⟩ | ⟨error, failed⟩
    · cases none'
    · cases failed
  refine .inr ⟨fun ⟨opened, committed⟩ => never opened committed, ?_, empty,
    .begin plan.expected :: told, silent.trans delivered, ?_⟩
  · rcases unfinished with ⟨given, -⟩ | failed
    · exact .inl given
    · exact .inr (.inr failed)
  · rw [List.mem_cons, not_or]
    exact ⟨nofun, protocol.complete_notMem⟩

/-- Once it was built, a writer spares all that is not under a name of its table, to its end. -/
theorem spares_run {plan : WriterPlan} {store : Store}
    (vacant : plan.descriptor.IsVacant (plan.site store)) {folder : Path}
    (resides : plan.descriptor.ResidesIn (plan.site store) folder) {partitions : List Partition}
    {conclusion : Conclusion} (built : (plan.run partitions conclusion store).built = .ok ()) :
    plan.descriptor.Spares folder (plan.site store)
      (plan.run partitions conclusion store).store.disk := by
  have possible := plan.runs store partitions conclusion
  generalize plan.run partitions conclusion store = run at built possible ⊢
  cases possible with
  | refused error later origin => cases built
  | broken stage error ran => cases built
  | built filter stage other made ran resides' same =>
      obtain rfl := resides.unique resides'
      exact (commits_or_leavesNothing_of_built made ran vacant resides partitions conclusion rfl).1

/-- A run that commits no table leaves nothing under the names of the table and spares all else. -/
theorem spares_of_uncommitted {plan : WriterPlan} {store : Store}
    (still : plan.site store = store.disk) (vacant : plan.descriptor.IsVacant store.disk)
    {folder : Path} (resides : plan.descriptor.ResidesIn store.disk folder)
    {partitions : List Partition} {conclusion : Conclusion}
    (never : ¬(plan.run partitions conclusion store).IsCommitted) :
    plan.descriptor.Spares folder store.disk (plan.run partitions conclusion store).store.disk ∧
      plan.descriptor.IsVacant (plan.run partitions conclusion store).store.disk := by
  rw [← still] at vacant resides ⊢
  have possible := plan.runs store partitions conclusion
  generalize plan.run partitions conclusion store = run at never possible ⊢
  cases possible with
  | refused error later origin =>
      have same : later.disk = plan.site store := by
        rcases origin with rfl | rfl
        · exact still.symm
        · rfl
      dsimp only
      rw [same]
      exact ⟨⟨fun _ _ => rfl, fun _ _ => rfl, Nat.le_refl _⟩, vacant⟩
  | broken stage error ran =>
      have after := (isolated_ground vacant resides).run plan.opening
      rw [ran] at after
      exact after.clear
  | built filter stage other made ran resides' same =>
      obtain ⟨spares, committed | nothing⟩ :=
        commits_or_leavesNothing_of_built made ran vacant resides partitions conclusion rfl
      · exact absurd committed.1 never
      · exact ⟨spares, nothing.2.2.1⟩

/-- Behind a partition that failed every call is refused, as if the run had been given up there. -/
theorem run_of_failed {plan : WriterPlan} {partitions : List Partition} {conclusion : Conclusion}
    {store : Store} {front back : List Attempt} {attempt : Attempt} {error : TableError}
    (split : (plan.run partitions conclusion store).attempts = front ++ attempt :: back)
    (failed : attempt.answer = .error error) :
    (∀ later ∈ back, later.answer = .error (.aborted plan.descriptor.render)) ∧
      (plan.run partitions conclusion store).result =
        (if conclusion = .abort then none else some (.error (.aborted plan.descriptor.render))) ∧
      (plan.run partitions conclusion store).store =
        (plan.run (partitions.take (front.length + 1)) .abort store).store := by
  have possible := plan.runs store partitions conclusion
  generalize plan.run partitions conclusion store = run at split possible ⊢
  cases possible with
  | refused cause later origin => cases front <;> cases split
  | broken stage cause ran => cases front <;> cases split
  | built filter stage folder made ran resides same =>
      obtain ⟨last, later, ended, setting, all, shorter, refused⟩ :=
        Writer.appendEach_of_error split failed
      have answer : last.abortedError = .aborted plan.descriptor.render := by
        rw [Writer.abortedError, setting]
        rfl
      refine ⟨refused, ?_⟩
      rw [run_of_built same]
      dsimp only
      rw [all, shorter]
      dsimp only
      rw [Writer.conclude_of_failed ended, Writer.conclude_of_failed ended, answer]
      exact ⟨rfl, rfl⟩

end WriterPlan

/-- A table is committed with exactly its files, or nothing of it is left; other files are spared. -/
theorem WriterPlan.run_commits_or_leavesNothing (plan : WriterPlan) (partitions : List Partition)
    (conclusion : Conclusion) (store : Store)
    (vacant : plan.descriptor.IsVacant (plan.site store)) :
    let run := plan.run partitions conclusion store
    (∀ path, ¬plan.descriptor.Holds (plan.site store) path →
      run.store.disk.file? path = store.disk.file? path) ∧
    (run.Commits plan ∨ run.LeavesNothing plan conclusion store) ∧
    ∀ front attempt back error, run.attempts = front ++ attempt :: back →
      attempt.answer = .error error →
      (∀ later ∈ back, later.answer = .error (.aborted plan.descriptor.render)) ∧
      run.result =
        (if conclusion = .abort then none else some (.error (.aborted plan.descriptor.render))) ∧
      run.store = (plan.run (partitions.take (front.length + 1)) .abort store).store := by
  have adds := plan.addsFolders_site store
  suffices parts : (∀ path, ¬plan.descriptor.Holds (plan.site store) path →
      (plan.run partitions conclusion store).store.disk.file? path = store.disk.file? path) ∧
      ((plan.run partitions conclusion store).Commits plan ∨
        (plan.run partitions conclusion store).LeavesNothing plan conclusion store) from
    ⟨parts.1, parts.2, fun front attempt back error split failed => run_of_failed split failed⟩
  have possible := plan.runs store partitions conclusion
  generalize plan.run partitions conclusion store = run at possible ⊢
  cases possible with
  | refused error later origin =>
      rcases origin with rfl | rfl
      · exact ⟨fun _ _ => rfl, .inr (leavesNothing_of_refused (vacant.of_addsFolders adds) rfl)⟩
      · exact ⟨fun path _ => adds.file? path,
          .inr (leavesNothing_of_refused vacant (plan.deliveries_ground store))⟩
  | broken stage error ran =>
      obtain ⟨files, empty, silent⟩ := clear_of_opening vacant ran
      exact ⟨files, .inr (leavesNothing_of_refused empty silent)⟩
  | built filter stage folder made ran resides same =>
      obtain ⟨spares, ending⟩ := commits_or_leavesNothing_of_built made ran vacant resides partitions
        conclusion rfl
      exact ⟨fun path other => file?_of_spares resides spares other, ending⟩

/-- Where the statistics cannot get their final name, nothing of the table is left. -/
theorem WriterPlan.run_leavesNothing_of_rename :
    let plan : WriterPlan := { unfiltered with
      medium := { rename := fun component => if component = .statistics then some .writeZero else none } }
    (plan.run Partition.triple .finish ⟨.empty, []⟩).LeavesNothing plan .finish ⟨.empty, []⟩ := by
  intro plan
  have vacant : plan.descriptor.IsVacant (plan.site ⟨.empty, []⟩) :=
    Descriptor.isVacant_of_names (by decide +kernel)
  obtain ⟨-, committed | nothing, -⟩ := run_commits_or_leavesNothing plan Partition.triple .finish
    ⟨.empty, []⟩ vacant
  · have never : ¬(plan.run Partition.triple .finish ⟨.empty, []⟩).IsCommitted := by decide +kernel
    exact absurd committed.1 never
  · exact nothing

end SortedTable

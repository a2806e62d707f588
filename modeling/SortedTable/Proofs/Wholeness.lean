import SortedTable.Proofs.Writer.Instants

namespace SortedTable

namespace Writer

/-- Since `start` the list of contents never had its final name, and the data was created first. -/
structure IsReserved (plan : WriterPlan) (folder : Path) (start : Store) (writer : Writer)
    (store : Store) : Prop where
  passes : start.Passes (plan.descriptor.IsUnlisted folder) store
  first : ∀ progress, writer.progress = some progress → [Component.data] <+: writer.created

namespace IsReserved

variable {plan : WriterPlan} {folder : Path} {base : Disk} {start store : Store} {writer : Writer}

theorem append (reserved : IsReserved plan folder start writer store)
    (secluded : IsSecluded plan folder base writer store) (partition : Partition) :
    IsReserved plan folder start (writer.append partition store).2.1
      (writer.append partition store).2.2 := by
  have possible := writer.appends partition store
  generalize writer.append partition store = outcome at possible
  have free := reserved.passes.last
  cases possible with
  | aborted ended => exact reserved
  | refused progress error held refusal =>
      rw [secluded.setting]
      have cleared := Stage.passes_clear plan.setting (writer.stage store) free
      exact ⟨reserved.passes.trans cleared, nofun⟩
  | skipped progress held allowed empty =>
      exact ⟨reserved.passes, fun _ _ => reserved.first progress held⟩
  | written progress stage held allowed full ran =>
      rw [secluded.setting] at ran
      have passes := Stage.passes_run (secluded.isolated progress held) free
        (partition.isQuiet_script writer.blockSize writer.nextPosition)
      have created := Stage.created_performAll plan.setting (writer.stage store)
        (partition.script writer.blockSize writer.nextPosition).steps
      rw [ran] at passes
      rw [(Stage.run_eq_none_iff.1 ran).1] at created
      exact ⟨reserved.passes.trans passes, fun _ _ => (reserved.first progress held).trans created⟩
  | broken progress stage error held ran =>
      rw [secluded.setting] at ran ⊢
      have passes := Stage.passes_run (secluded.isolated progress held) free
        (partition.isQuiet_script writer.blockSize writer.nextPosition)
      rw [ran] at passes
      have cleared := Stage.passes_clear plan.setting stage passes.last
      exact ⟨(reserved.passes.trans passes).trans cleared, nofun⟩

theorem appendEach (reserved : IsReserved plan folder start writer store)
    (secluded : IsSecluded plan folder base writer store) (partitions : List Partition) :
    IsReserved plan folder start (writer.appendEach store partitions).2.1
      (writer.appendEach store partitions).2.2 := by
  induction partitions generalizing writer store with
  | nil => exact reserved
  | cons partition rest ih =>
      exact ih (reserved.append secluded partition) (secluded.append partition)

end IsReserved

theorem listsLast_ending (progress : Progress) (version : Version) :
    (progress.ending version).ListsLast := by
  unfold Progress.ending
  split
  · exact .inl ⟨nofun, nofun⟩
  · exact listsLast_commitScript version progress.filter progress.statistics

end Writer

/-- The table became whole and was listed, and at the next instant it was listed without its data. -/
def WriterPlan.Unravels (plan : WriterPlan) (folder : Path) (components : List Component)
    (start later : Store) : Prop :=
  ∃ writing cleaning,
    start.Gains later (writing ++ .remove (folder ++ [plan.descriptor.nameOf true .data]) :: cleaning) ∧
    start.disk.Always (plan.descriptor.IsWhole folder components) writing ∧
    plan.descriptor.HasAll (start.disk.applyAll writing) folder components ∧
    ¬plan.descriptor.IsWhole folder components (start.disk.applyAll
      (writing ++ [.remove (folder ++ [plan.descriptor.nameOf true .data])]))

namespace Writer

/-- Ending a writer keeps the table whole, unless the table was committed but cannot be opened. -/
theorem IsReserved.conclude {plan : WriterPlan} {folder : Path} {base : Disk} {start store : Store}
    {writer : Writer} {filter : Filter} (reserved : IsReserved plan folder start writer store)
    (secluded : IsSecluded plan folder base writer store)
    (filling : IsFilling plan.setting (Stage.Shows plan.setting folder base) filter writer store)
    (conclusion : Conclusion) :
    start.Passes (plan.descriptor.IsWhole folder (tableComponents filter ++ [.contents]))
        (writer.conclude conclusion store).2 ∨
      conclusion = .finishAndOpen ∧ (∃ error, (writer.conclude conclusion store).1 =
        some (.error error)) ∧
      plan.Unravels folder (tableComponents filter ++ [.contents]) start
        (writer.conclude conclusion store).2 := by
  have possible := writer.concludes conclusion store
  generalize writer.conclude conclusion store = outcome at possible
  have free := reserved.passes.last
  -- A commit that succeeds leaves a whole table, which was not listed before.
  have whole {progress : Progress} {stage : Stage} (held : writer.progress = some progress)
      (ran : (writer.stage store).run writer.setting (commitScript
        writer.setting.descriptor.version progress.filter progress.statistics) = (stage, none)) :
      plan.descriptor.HasAll stage.store.disk folder (tableComponents filter ++ [.contents]) ∧
        start.Passes (plan.descriptor.IsWhole folder (tableComponents filter ++ [.contents]))
          stage.store ∧
        ∃ cleaning, stage.store.Gains (stage.clear plan.setting)
          (.remove (folder ++ [plan.descriptor.nameOf true .data]) :: cleaning) := by
    obtain ⟨same, data, index, fields, -, shows'⟩ :=
      filling.commit (isKept_shows _ _ _) held ran
    have all := hasAll_of_stands shows'.toStands
    rw [same] at all
    rw [secluded.setting] at ran
    have passes := Stage.passes_run_of_lists (secluded.isolated progress held) free
      (listsLast_commitScript _ _ _) ran all
    have created := Stage.created_performAll plan.setting (writer.stage store) (commitScript
      plan.setting.descriptor.version progress.filter progress.statistics).steps
    rw [(Stage.run_eq_none_iff.1 ran).1] at created
    exact ⟨all, (reserved.passes.mono fun _ => .inl).trans passes,
      Stage.gains_clear shows' ((reserved.first progress held).trans created)⟩
  cases possible with
  | ended result ended answer => exact .inl (reserved.passes.mono fun _ => .inl)
  | aborted progress given held =>
      rw [secluded.setting]
      have cleared := Stage.passes_clear plan.setting (writer.stage store) free
      exact .inl ((reserved.passes.trans cleared).mono fun _ => .inl)
  | broken progress error held reason =>
      rcases ran : (writer.stage store).run writer.setting
        (progress.ending writer.setting.descriptor.version) with ⟨stage, - | cause⟩
      · rw [ran] at reason
        have commits : progress.ending writer.setting.descriptor.version = commitScript
            writer.setting.descriptor.version progress.filter progress.statistics := by
          have unbroken := (Stage.run_eq_none_iff.1 ran).2
          unfold Progress.ending at unbroken ⊢
          split at unbroken
          · cases unbroken
          · rename_i some'
            rw [if_neg some']
        rw [commits] at ran
        obtain ⟨all, ⟨writing, gains, always⟩, cleaning, gains'⟩ := whole held ran
        rw [gains.disk] at all
        dsimp only
        rw [secluded.setting]
        refine .inr ⟨reason.resolve_left (absurd rfl), ⟨error, rfl⟩, writing, cleaning,
          gains.trans gains', always, all, ?_⟩
        rw [Disk.applyAll, List.foldl_append]
        exact all.not_isWhole_remove (by simp [tableComponents]) (by simp)
      · rw [secluded.setting] at ran ⊢
        have passes := Stage.passes_run_of_fails (secluded.isolated progress held) free
          (listsLast_ending progress _) ran
        have cleared := Stage.passes_clear plan.setting stage passes.last
        exact .inl (((reserved.passes.trans passes).trans cleared).mono fun _ => .inl)
  | committed progress stage opened held ran reopens =>
      obtain ⟨-, passes, -⟩ := whole held ran
      exact .inl (passes.trans (.deliver passes.last _ _))

end Writer

namespace WriterPlan

variable {plan : WriterPlan} {store : Store} {folder : Path}

/-- While the folder of a table is made, nothing of the table is there. -/
theorem passes_ground (vacant : plan.descriptor.IsVacant (plan.site store))
    (resides : plan.descriptor.ResidesIn (plan.site store) folder) :
    store.Passes (plan.descriptor.IsUnlisted folder) (plan.ground store).store := by
  refine .changeAll ((store.disk.always_createFolders plan.descriptor.directory).mono fun _ adds => ?_)
  apply adds.node?_eq_none
  rw [← Store.disk_changeAll]
  exact vacant folder resides true .contents

theorem isQuiet_opening (plan : WriterPlan) : plan.opening.IsQuiet := by
  simp [Script.IsQuiet, opening, Script.ofSteps, Step.IsQuiet]

theorem created_of_opening {stage : Stage}
    (ran : (plan.ground store).run plan.setting plan.opening = (stage, none)) :
    [Component.data] <+: stage.created := by
  rw [created_eq_of_opening ran]
  exact List.prefix_append [Component.data] [.index]

end WriterPlan

/-- A table is whole at every instant of a run, unless it was committed but cannot be opened. -/
theorem WriterPlan.run_isWhole (plan : WriterPlan) (partitions : List Partition)
    (conclusion : Conclusion) (store : Store)
    (vacant : plan.descriptor.IsVacant (plan.site store)) :
    let run := plan.run partitions conclusion store
    ∀ folder filter, plan.descriptor.ResidesIn (plan.site store) folder →
      Filter.forTable plan.expected plan.settings.falsePositiveChance = .ok filter →
      store.Passes (plan.descriptor.IsWhole folder (tableComponents filter ++ [.contents]))
          run.store ∨
        conclusion = .finishAndOpen ∧ (∃ error, run.result = some (.error error)) ∧
          plan.Unravels folder (tableComponents filter ++ [.contents]) store run.store := by
  dsimp only
  intro folder filter resides made
  have ground := passes_ground vacant resides
  have isolated : (plan.ground store).Isolated plan.setting.descriptor folder (plan.site store) :=
    .start resides vacant
  have opened := Stage.passes_run isolated ground.last plan.isQuiet_opening
  have possible := plan.runs store partitions conclusion
  generalize plan.run partitions conclusion store = run at possible ⊢
  cases possible with
  | refused error later origin =>
      rcases origin with rfl | rfl
      · exact .inl (.refl (.inl ground.first))
      · exact .inl (ground.mono fun _ => .inl)
  | broken stage error ran =>
      rw [ran] at opened
      have cleared := Stage.passes_clear plan.setting stage opened.last
      exact .inl (((ground.trans opened).trans cleared).mono fun _ => .inl)
  | built filter' stage folder' made' ran resides' same =>
      cases made.symm.trans made'
      obtain rfl := resides.unique resides'
      rw [ran] at opened
      obtain ⟨secluded, filling⟩ := start_of_opening filter vacant resides ran
      have reserved : Writer.IsReserved plan folder store (plan.writer filter stage) stage.store :=
        ⟨ground.trans opened, fun _ _ => created_of_opening ran⟩
      exact (reserved.appendEach secluded partitions).conclude (secluded.appendEach partitions)
        (filling.appendEach (Writer.isKept_shows _ _ _) partitions) conclusion

/-- A table that is finished and not opened is whole at every instant. -/
theorem WriterPlan.run_isWhole_tombstone :
    Store.Passes (unfiltered.descriptor.IsWhole ["tables"] [.data, .index, .statistics, .contents])
      ⟨.empty, []⟩ (unfiltered.run [.tombstone] .finish ⟨.empty, []⟩).store := by
  have vacant : unfiltered.descriptor.IsVacant (unfiltered.site ⟨.empty, []⟩) :=
    Descriptor.isVacant_of_names (by decide +kernel)
  have made : (Filter.forTable unfiltered.expected
      unfiltered.settings.falsePositiveChance).toOption = some .alwaysPresent := by decide +kernel
  have resides : ((unfiltered.site ⟨.empty, []⟩).enter []
      (Path.steps unfiltered.descriptor.directory)).toOption = some ["tables"] := by decide +kernel
  rcases run_isWhole unfiltered [.tombstone] .finish ⟨.empty, []⟩ vacant ["tables"] .alwaysPresent
    (Except.toOption_eq_some_iff.1 resides) (Except.toOption_eq_some_iff.1 made) with whole | ⟨other, -⟩
  · exact whole
  · cases other

/-- A plan for a medium that loses the index, so that the committed table cannot be opened. -/
def WriterPlan.forgetful : WriterPlan :=
  { unfiltered with medium := .withSink (· = .index) { keeps := false } }

/-- A writer that is stopped while it cleans up leaves a committed table without its data. -/
theorem WriterPlan.isCommitted_without_data :
    let run := forgetful.run [.tombstone] .finishAndOpen ⟨.empty, []⟩
    ∃ front, front <+: run.store.changes ∧
      forgetful.descriptor.isCommitted (Disk.empty.applyAll front) = true ∧
      (Disk.empty.applyAll front).exists? (forgetful.descriptor.finalPath .data) = false :=
  ⟨_, List.take_prefix 13 _, by decide +kernel⟩

end SortedTable

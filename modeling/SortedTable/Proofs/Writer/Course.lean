import SortedTable.Proofs.Writer.Run

namespace SortedTable

theorem tableComponents_congr {filter other : Filter}
    (same : filter.isInformative = other.isInformative) :
    tableComponents filter = tableComponents other := by
  unfold tableComponents
  rw [same]

theorem Filter.isInformative_add (filter : Filter) (hash : Murmur.Words) :
    (filter.add hash).isInformative = filter.isInformative := by
  cases filter <;> rfl

namespace Writer

theorem append_of_failed {writer : Writer} (ended : writer.progress = none) (partition : Partition)
    (store : Store) :
    writer.append partition store = (.error writer.abortedError, writer, store) := by
  unfold Writer.append
  rw [ended]

/-- A writer that has failed refuses every further partition and changes nothing. -/
theorem appendEach_of_failed {writer : Writer} (ended : writer.progress = none) (store : Store)
    (partitions : List Partition) :
    writer.appendEach store partitions =
      (partitions.map fun partition => ⟨partition, none, .error writer.abortedError⟩, writer,
        store) := by
  induction partitions with
  | nil => rfl
  | cons partition rest ih =>
      rw [appendEach, append_of_failed ended]
      dsimp only
      rw [ih, position?, ended]
      rfl

/-- A writer is given the partitions in order, and answers each of them. -/
theorem map_partition_appendEach (writer : Writer) (store : Store) (partitions : List Partition) :
    (writer.appendEach store partitions).1.map Attempt.partition = partitions := by
  induction partitions generalizing writer store with
  | nil => rfl
  | cons partition rest ih =>
      rw [appendEach, List.map_cons]
      exact congrArg (partition :: ·) (ih _ _)

theorem setting_append (writer : Writer) (partition : Partition) (store : Store) :
    (writer.append partition store).2.1.setting = writer.setting := by
  have possible := writer.appends partition store
  generalize writer.append partition store = outcome at possible
  cases possible <;> rfl

/-- A writer fails with the first error. -/
theorem progress_of_append_error {writer next : Writer} {partition : Partition} {store later : Store}
    {error : TableError} (failed : writer.append partition store = (.error error, next, later)) :
    next.progress = none := by
  have possible := writer.appends partition store
  rw [failed] at possible
  cases possible with
  | aborted ended => exact ended
  | refused progress error held refusal => rfl
  | broken progress stage error held ran => rfl

/-- Behind an error come only refusals, and the store stays as the error left it. -/
theorem appendEach_of_error {writer : Writer} {store : Store} {partitions : List Partition}
    {front back : List Attempt} {attempt : Attempt} {error : TableError}
    (split : (writer.appendEach store partitions).1 = front ++ attempt :: back)
    (failed : attempt.answer = .error error) :
    ∃ last later, last.progress = none ∧ last.setting = writer.setting ∧
      (writer.appendEach store partitions).2 = (last, later) ∧
      (writer.appendEach store (partitions.take (front.length + 1))).2 = (last, later) ∧
      ∀ further ∈ back, further.answer = .error writer.abortedError := by
  induction partitions generalizing writer store front with
  | nil => cases front <;> cases split
  | cons partition rest ih =>
      rcases answered : writer.append partition store with ⟨answer, next, middle⟩
      have setting : next.setting = writer.setting := by
        have same := setting_append writer partition store
        rwa [answered] at same
      rw [appendEach, answered] at split ⊢
      dsimp only at split ⊢
      cases front with
      | nil =>
          obtain ⟨rfl, rfl⟩ := List.cons.inj split
          dsimp only at failed
          rw [failed] at answered
          have ended := progress_of_append_error answered
          refine ⟨next, middle, ended, setting, ?_, ?_, fun further member => ?_⟩
          · rw [appendEach_of_failed ended]
          · rw [List.length_nil, List.take_succ_cons, List.take_zero, appendEach, answered]
            rfl
          · rw [appendEach_of_failed ended] at member
            obtain ⟨other, -, rfl⟩ := List.mem_map.1 member
            dsimp only
            rw [abortedError, setting]
            rfl
      | cons earlier front =>
          obtain ⟨-, split⟩ := List.cons.inj split
          obtain ⟨last, later, ended, same, all, shorter, refused⟩ := ih split
          refine ⟨last, later, ended, same.trans setting, all, ?_, fun further member => ?_⟩
          · rw [List.length_cons, List.take_succ_cons, appendEach, answered]
            exact shorter
          · rw [refused further member, abortedError, setting]
            rfl

/-- A writer that has failed cannot commit its table, and ending it changes nothing. -/
theorem conclude_of_failed {writer : Writer} (ended : writer.progress = none)
    (conclusion : Conclusion) (store : Store) :
    writer.conclude conclusion store =
      (if conclusion = .abort then none else some (.error writer.abortedError), store) := by
  have possible := writer.concludes conclusion store
  generalize writer.conclude conclusion store = outcome at possible
  cases possible with
  | ended result _ answer => rw [answer]
  | aborted progress given held => cases ended.symm.trans held
  | broken progress error held => cases ended.symm.trans held
  | committed progress stage opened held ran reopens => cases ended.symm.trans held

/-- A property of the files that all steps keep in accordance with the drafts. -/
def IsKept (setting : Setting) (holds : Drafts → Stage → Prop) : Prop :=
  ∀ drafts next stage later steps, holds drafts stage → drafts.steps steps = some next →
    stage.performAll setting steps = (later, none) → holds next later

theorem isKept_stands (setting : Setting) (folder : Path) (base : Disk) :
    IsKept setting (Stage.Stands setting folder base) :=
  fun _ _ _ _ _ stands steps performed => stands.performAll steps performed

theorem isKept_shows (setting : Setting) (folder : Path) (base : Disk) :
    IsKept setting (Stage.Shows setting folder base) :=
  fun _ _ _ _ _ shows' steps performed => shows'.performAll steps performed

/-- Unless the writer has failed, its data and its index are open and nothing else is there. -/
structure IsFilling (setting : Setting) (holds : Drafts → Stage → Prop) (first : Filter)
    (writer : Writer) (store : Store) : Prop where
  setting : writer.setting = setting
  informative : ∀ progress, writer.progress = some progress →
    progress.filter.isInformative = first.isInformative
  filled : ∀ progress, writer.progress = some progress → ∃ data index,
    holds (.filling data index) (writer.stage store)

namespace IsFilling

variable {setting : Setting} {holds : Drafts → Stage → Prop} {first : Filter} {writer : Writer}
  {store : Store}

theorem mono (filling : IsFilling setting holds first writer store)
    {weaker : Drafts → Stage → Prop} (weakened : ∀ drafts stage, holds drafts stage →
      weaker drafts stage) : IsFilling setting weaker first writer store where
  setting := filling.setting
  informative := filling.informative
  filled progress held := by
    obtain ⟨data, index, holds'⟩ := filling.filled progress held
    exact ⟨data, index, weakened _ _ holds'⟩

theorem append (filling : IsFilling setting holds first writer store) (kept : IsKept setting holds)
    (partition : Partition) :
    IsFilling setting holds first (writer.append partition store).2.1
      (writer.append partition store).2.2 := by
  have possible := writer.appends partition store
  generalize writer.append partition store = outcome at possible
  cases possible with
  | aborted ended => exact filling
  | refused progress error held refusal => exact ⟨filling.setting, nofun, nofun⟩
  | skipped progress held allowed empty =>
      exact ⟨filling.setting, fun _ same => by cases same; exact filling.informative progress held,
        fun _ _ => filling.filled progress held⟩
  | written progress stage held allowed full ran =>
      rw [filling.setting] at ran
      obtain ⟨data, index, holds'⟩ := filling.filled progress held
      obtain ⟨performed, unbroken⟩ := Stage.run_eq_none_iff.1 ran
      obtain ⟨written, steps⟩ := partition.steps_script unbroken data index
      refine ⟨filling.setting, fun _ same => ?_,
        fun _ _ => ⟨_, _, kept _ _ _ _ _ holds' steps performed⟩⟩
      cases same
      rw [Progress.add, Filter.isInformative_add]
      exact filling.informative progress held
  | broken progress stage error held ran => exact ⟨filling.setting, nofun, nofun⟩

theorem appendEach (filling : IsFilling setting holds first writer store)
    (kept : IsKept setting holds) (partitions : List Partition) :
    IsFilling setting holds first (writer.appendEach store partitions).2.1
      (writer.appendEach store partitions).2.2 := by
  induction partitions generalizing writer store with
  | nil => exact filling
  | cons partition rest ih => exact ih (filling.append kept partition)

/-- The stage of a writer whose table was committed holds the files of the table. -/
theorem commit (filling : IsFilling setting holds first writer store)
    (kept : IsKept setting holds) {progress : Progress} {stage : Stage}
    (held : writer.progress = some progress)
    (ran : (writer.stage store).run writer.setting (commitScript
      writer.setting.descriptor.version progress.filter progress.statistics) = (stage, none)) :
    tableComponents progress.filter = tableComponents first ∧
      ∃ data index fields, progress.statistics.fields = .ok fields ∧
        holds (.committed data index fields.flatten
          (Bytes.ofText (contentsText (tableComponents progress.filter)))
          (Drafts.filterBytes setting.descriptor.version progress.filter)) stage := by
  refine ⟨tableComponents_congr (filling.informative progress held), ?_⟩
  rw [filling.setting] at ran
  obtain ⟨data, index, holds'⟩ := filling.filled progress held
  obtain ⟨performed, unbroken⟩ := Stage.run_eq_none_iff.1 ran
  obtain ⟨fields, encoded, steps⟩ := Drafts.steps_commit unbroken data index
  exact ⟨data, index, fields, encoded, kept _ _ _ _ _ holds' steps performed⟩

end IsFilling

end Writer

end SortedTable

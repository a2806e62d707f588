import SortedTable.Proofs.Leftovers

namespace SortedTable

namespace Reader

variable {plan : WriterPlan} {folder : Path} {base : Disk} {stage : Stage}
  {placed : List (Placed plan.settings.blockSize)} {progress : Progress}
  {data index statistics contents : Bytes} {filter : Option Bytes}

/-- A table that a medium hands over, with any filter, lists the partitions that were placed. -/
theorem lists_of_ofParts (keeps : ∀ component, (plan.medium.sink component).keeps = true)
    (gathers : Writer.Gathers placed progress)
    (laid : Laid plan.settings.blockSize placed data index)
    (follows : stage.Follows plan.setting folder base
      (.committed data index statistics contents filter))
    {medium : Medium} {other : Filter} {reader : Reader}
    (handed : ofParts medium stage.store.disk plan.descriptor other progress.statistics =
      .ok reader) :
    Lists { reader with filter := progress.filter } stage.store.disk placed ∧
      reader.statistics = progress.statistics := by
  have own := ofParts_withFilter handed progress.filter
  have entries := entries_of_ofParts (keeps .index) laid follows own
  obtain ⟨found, lists, opens⟩ := ofParts_of_follows keeps gathers laid entries follows
  rw [opens medium] at own
  obtain ⟨_, -, own⟩ := Except.bind_eq_ok_iff.1 own
  obtain ⟨_, -, own⟩ := Except.bind_eq_ok_iff.1 own
  rw [← Except.pure_eq_ok_iff.1 own]
  exact ⟨lists, (ofParts_eq_ok_iff.1 handed).2.2.2.2.1⟩

end Reader

namespace Writer

/-- A writer has gathered the partitions that are not empty, in order. -/
theorem gathered_appendEach {writer : Writer} {store : Store} {partitions : List Partition}
    {first last : Progress} (begun : writer.progress = some first)
    (ended : (writer.appendEach store partitions).2.1.progress = some last) :
    last.filter = (partitions.filter fun partition => !partition.isEmpty).foldl
        (fun filter partition => filter.add partition.key.hash) first.filter ∧
      last.statistics = (partitions.filter fun partition => !partition.isEmpty).foldl
        Statistics.add first.statistics := by
  induction partitions generalizing writer store first with
  | nil =>
      cases begun.symm.trans ended
      exact ⟨rfl, rfl⟩
  | cons partition rest rec =>
      have unfinished (store : Store) :
          (writer.failed.appendEach store rest).2.1.progress ≠ some last := by
        rw [appendEach_of_failed (show writer.failed.progress = none from rfl)]
        exact nofun
      have possible := writer.appends partition store
      rw [appendEach] at ended
      generalize writer.append partition store = outcome at possible ended
      cases possible with
      | aborted failed => cases begun.symm.trans failed
      | refused progress error held refusal =>
          exact absurd ended (unfinished _)
      | skipped progress held allowed empty =>
          cases begun.symm.trans held
          rw [List.filter_cons_of_neg (by simp [empty])]
          exact (rec rfl ended :)
      | written progress stage held allowed full ran =>
          cases begun.symm.trans held
          rw [List.filter_cons_of_pos (by simp [full])]
          exact rec rfl ended
      | broken progress stage error held ran =>
          exact absurd ended (unfinished _)

end Writer

/-- An open table of a run: the one that was handed over, or the committed table opened again. -/
def WriterPlan.Opens (plan : WriterPlan) (partitions : List Partition) (conclusion : Conclusion)
    (store : Store) (reader : Reader) : Prop :=
  (plan.run partitions conclusion store).result = some (.ok (some reader)) ∨
    Reader.load (plan.run partitions conclusion store).store.disk plan.descriptor = .ok reader

/-- The files of a committed table hold the partitions that were placed, and its statistics count
them. -/
structure WriterPlan.Files (plan : WriterPlan) (partitions : List Partition) (conclusion : Conclusion)
    (store : Store) (placed : List (Placed plan.settings.blockSize)) (progress : Progress)
    (data index : Nat) : Prop where
  places : Writer.Places partitions (plan.run partitions conclusion store).attempts placed
  counted : progress.statistics = (placed.map fun one => one.partition).foldl Statistics.add
    (.empty plan.settings.falsePositiveChance.toBits)
  laid : Laid plan.settings.blockSize placed
    ((plan.run partitions conclusion store).store.disk.content data)
    ((plan.run partitions conclusion store).store.disk.content index)
  dataFile : (plan.run partitions conclusion store).store.disk.find
    (plan.descriptor.finalPath .data) = .ok (.file data)
  indexFile : (plan.run partitions conclusion store).store.disk.find
    (plan.descriptor.finalPath .index) = .ok (.file index)
  dataRoom : ((plan.run partitions conclusion store).store.disk.content data).length ≤
    Stage.maxFileBytes
  indexRoom : ((plan.run partitions conclusion store).store.disk.content index).length ≤
    Stage.maxFileBytes
  opened : ∀ reader, plan.Opens partitions conclusion store reader →
    Reader.Lists { reader with filter := progress.filter }
        (plan.run partitions conclusion store).store.disk placed ∧
      reader.statistics = progress.statistics

/-- A committed table has its files, and each open table lists what is in them. -/
theorem WriterPlan.files_of_committed {plan : WriterPlan} {partitions : List Partition}
    {conclusion : Conclusion} {store : Store}
    (keeps : ∀ component, (plan.medium.sink component).keeps = true)
    (apart : plan.descriptor.IsApart (plan.site store))
    (committed : (plan.run partitions conclusion store).IsCommitted) :
    ∃ placed progress data index, plan.Files partitions conclusion store placed progress data index := by
  obtain ⟨opened, committed⟩ := committed
  obtain ⟨writer, begun, folder, first, start, started, -, nothing, same⟩ :=
    exists_writer apart committed
  rw [same] at committed
  dsimp only at committed
  obtain ⟨_, alive⟩ := Writer.alive_of_conclude committed
  obtain ⟨placed, places, lays⟩ := start.appendEach (Writer.answers_of_alive alive)
  obtain ⟨progress, stage, data, index, fields, held, ended, gathers, laid, encoded, follows,
    reopens⟩ := lays.conclude committed
  rw [List.nil_append] at gathers laid
  obtain ⟨dataId, dataFile, -, dataHeld, dataRoom⟩ := follows.find .data rfl (keeps .data)
  obtain ⟨indexId, indexFile, -, indexHeld, indexRoom⟩ := follows.find .index rfl (keeps .index)
  have disk : (plan.run partitions conclusion store).store.disk = stage.store.disk := by
    rw [same]
    dsimp only
    rw [ended, Store.disk_deliver]
  subst dataHeld indexHeld
  refine ⟨placed, progress, dataId, indexId, same ▸ places, ?_, disk ▸ laid, disk ▸ dataFile,
    disk ▸ indexFile, disk ▸ dataRoom, disk ▸ indexRoom, ?_⟩
  · rw [(Writer.gathered_appendEach started held).2, nothing, places.partitions_eq]
  · rintro reader (handed | loaded)
    · rw [same] at handed
      dsimp only at handed
      obtain rfl := Except.ok.inj (Option.some.inj (committed.symm.trans handed))
      rw [disk]
      cases conclusion with
      | finish => cases reopens
      | abort => cases reopens
      | finishAndOpen =>
          obtain ⟨_, own, handed⟩ := reopens
          cases own
          exact Reader.lists_of_ofParts keeps gathers laid follows handed
    · rw [disk] at loaded ⊢
      rw [Reader.load_eq_of_follows keeps encoded follows] at loaded
      obtain ⟨filter, -, handed⟩ := Except.bind_eq_ok_iff.1 loaded
      exact Reader.lists_of_ofParts keeps gathers laid follows handed

end SortedTable

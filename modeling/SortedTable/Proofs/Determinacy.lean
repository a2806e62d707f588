import SortedTable.Proofs.Opened
import SortedTable.Proofs.Writer.Acceptance
import SortedTable.Proofs.Writer.Atomic

namespace SortedTable

/-- Partitions are laid out in one way. -/
theorem Laid.unique {blockSize : UInt64} {placed placed' : List (Placed blockSize)}
    {data data' index index' : Bytes} (laid : Laid blockSize placed data index)
    (laid' : Laid blockSize placed' data' index')
    (same : (placed.map fun one => one.partition) = placed'.map fun one => one.partition) :
    data = data' ∧ index = index' := by
  induction laid generalizing placed' data' index' with
  | nil =>
      cases laid' with
      | nil => exact ⟨rfl, rfl⟩
      | snoc _ next => simp at same
  | snoc _ next atData atIndex ih =>
      cases laid' with
      | nil => simp at same
      | snoc before next' atData' atIndex' =>
          rw [List.map_append, List.map_append] at same
          obtain ⟨front, last⟩ := List.append_inj' same rfl
          obtain ⟨rfl, rfl⟩ := ih before front
          obtain ⟨partition, ⟨dataPosition, indexPosition⟩, written⟩ := next
          obtain ⟨partition', ⟨dataPosition', indexPosition'⟩, written'⟩ := next'
          obtain rfl : partition = partition' := (List.cons.inj last).1
          obtain rfl : dataPosition = dataPosition' := Eq.trans atData atData'.symm
          obtain rfl : indexPosition = indexPosition' := Eq.trans atIndex atIndex'.symm
          obtain rfl := written.eq written'
          exact ⟨rfl, rfl⟩

/-- Under the names of a committed table are the bytes of its drafts and nothing else. -/
theorem Stage.Shows.file?_nameOf {setting : Setting} {folder : Path} {base : Disk} {stage : Stage}
    {filter : Option Bytes} {data index statistics contents : Bytes}
    (keeps : ∀ component, (setting.medium.sink component).keeps = true)
    (shows' : stage.Shows setting folder base (.committed data index statistics contents filter))
    (isFinal : Bool) (component : Component) :
    stage.store.disk.file? (folder ++ [setting.descriptor.nameOf isFinal component]) =
      if isFinal then
        (Drafts.committed data index statistics contents filter component).map Draft.bytes
      else none := by
  have free {isFinal : Bool}
      (differs : ∀ draft, Drafts.committed data index statistics contents filter component =
        some draft → draft.isFinal ≠ isFinal) :
      stage.store.disk.file? (folder ++ [setting.descriptor.nameOf isFinal component]) = none := by
    rw [Disk.file?, shows'.bare isFinal component differs]
  cases isFinal with
  | false =>
      refine free fun draft drafted => ?_
      rw [(Drafts.isFinal_of_committed drafted).1]
      decide
  | true =>
      cases drafted : Drafts.committed data index statistics contents filter component with
      | none =>
          refine free fun draft drafted' => ?_
          cases drafted.symm.trans drafted'
      | some draft => exact Writer.file?_of_shows shows' component drafted (keeps component)

namespace WriterPlan

/-- What a plan makes of partitions wherever it writes them. -/
structure Makes (plan : WriterPlan) (partitions : List Partition)
    (placed : List (Placed plan.settings.blockSize)) (progress : Progress) (data index : Bytes)
    (fields : List Bytes) : Prop where
  placed_eq : (placed.map fun one => one.partition) =
    partitions.filter fun partition => !partition.isEmpty
  filter_eq : ∃ first, Filter.forTable plan.expected plan.settings.falsePositiveChance = .ok first ∧
    progress.filter = (partitions.filter fun partition => !partition.isEmpty).foldl
      (fun filter partition => filter.add partition.key.hash) first
  statistics_eq : progress.statistics =
    (partitions.filter fun partition => !partition.isEmpty).foldl Statistics.add
      (.empty plan.settings.falsePositiveChance.toBits)
  laid : Laid plan.settings.blockSize placed data index
  fields_eq : progress.statistics.fields = .ok fields

theorem Makes.unique {plan : WriterPlan} {partitions : List Partition}
    {placed placed' : List (Placed plan.settings.blockSize)} {progress progress' : Progress}
    {data data' index index' : Bytes} {fields fields' : List Bytes}
    (makes : plan.Makes partitions placed progress data index fields)
    (makes' : plan.Makes partitions placed' progress' data' index' fields') :
    progress.filter = progress'.filter ∧ data = data' ∧ index = index' ∧ fields = fields' := by
  obtain ⟨first, sized, filter⟩ := makes.filter_eq
  obtain ⟨first', sized', filter'⟩ := makes'.filter_eq
  cases sized.symm.trans sized'
  obtain ⟨sameData, sameIndex⟩ :=
    makes.laid.unique makes'.laid (makes.placed_eq.trans makes'.placed_eq.symm)
  have encoded := makes.fields_eq
  rw [makes.statistics_eq, ← makes'.statistics_eq, makes'.fields_eq] at encoded
  exact ⟨filter.trans filter'.symm, sameData, sameIndex, (Except.ok.inj encoded).symm⟩

variable {plan : WriterPlan} {partitions : List Partition} {conclusion : Conclusion}
  {store store' : Store} {opened opened' : Option Reader}

/-- A committed table shows what its plan makes of the partitions. -/
theorem makes_of_committed (vacant : plan.descriptor.IsVacant (plan.site store))
    (committed : (plan.run partitions conclusion store).result = some (.ok opened)) :
    ∃ placed progress data index fields folder, ∃ stage : Stage,
      plan.Makes partitions placed progress data index fields ∧
      (plan.run partitions conclusion store).store.disk = stage.store.disk ∧
      stage.Shows plan.setting folder (plan.site store) (.committed data index fields.flatten
        (Bytes.ofText (contentsText (tableComponents progress.filter)))
        (Drafts.filterBytes plan.descriptor.version progress.filter)) := by
  obtain ⟨writer, begun, folder, first, start, started, sized, nothing, same⟩ :=
    exists_writer vacant.isApart committed
  rw [same] at committed
  dsimp only at committed
  obtain ⟨_, alive⟩ := Writer.alive_of_conclude committed
  obtain ⟨placed, places, lays⟩ := start.appendEach (Writer.answers_of_alive alive)
  obtain ⟨progress, stage, data, index, fields, held, ended, -, laid, encoded, follows, -⟩ :=
    lays.conclude committed
  obtain ⟨filter, statistics⟩ := Writer.gathered_appendEach started held
  rw [nothing] at statistics
  refine ⟨placed, progress, data, index, fields, folder, stage,
    ⟨places.partitions_eq, ⟨_, sized, filter⟩, statistics, laid, encoded⟩, ?_,
    follows, vacant folder follows.resides⟩
  rw [same]
  dsimp only
  rw [ended, Store.disk_deliver]

/-- Wherever one plan commits the same partitions, the same bytes are under the names of the table. -/
theorem file?_eq_of_committed (keeps : ∀ component, (plan.medium.sink component).keeps = true)
    (vacant : plan.descriptor.IsVacant (plan.site store))
    (vacant' : plan.descriptor.IsVacant (plan.site store')) {folder folder' : Path}
    (resides : plan.descriptor.ResidesIn (plan.site store) folder)
    (resides' : plan.descriptor.ResidesIn (plan.site store') folder')
    (committed : (plan.run partitions conclusion store).result = some (.ok opened))
    (committed' : (plan.run partitions conclusion store').result = some (.ok opened'))
    (isFinal : Bool) (component : Component) :
    (plan.run partitions conclusion store).store.disk.file?
        (folder ++ [plan.descriptor.nameOf isFinal component]) =
      (plan.run partitions conclusion store').store.disk.file?
        (folder' ++ [plan.descriptor.nameOf isFinal component]) := by
  obtain ⟨placed, progress, data, index, fields, found, stage, makes, disk, shows'⟩ :=
    makes_of_committed vacant committed
  obtain ⟨_, _, _, _, _, found', stage', makes', disk', shows''⟩ :=
    makes_of_committed vacant' committed'
  obtain ⟨filter, rfl, rfl, rfl⟩ := makes.unique makes'
  obtain rfl := resides.unique shows'.resides
  obtain rfl := resides'.unique shows''.resides
  rw [filter] at shows'
  rw [disk, disk']
  exact (shows'.file?_nameOf keeps isFinal component).trans
    (shows''.file?_nameOf keeps isFinal component).symm

end WriterPlan

end SortedTable

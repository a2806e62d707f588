import SortedTable.Proofs.Opened
import SortedTable.Proofs.Statistics

namespace SortedTable

namespace Reader

variable {blockSize : UInt64} {reader : Reader} {disk : Disk} {placed : List (Placed blockSize)}
  {one : Placed blockSize} {filter : Filter}

/-- A key under which a partition is found is admitted. -/
theorem mayContain_of_partition? {key : Key} {found : Partition}
    (returned : reader.partition? disk key = .ok (some found)) : reader.mayContain key = true := by
  by_contra hidden
  rw [partition?, entry?, if_neg hidden] at returned
  cases returned

namespace Lists

/-- With any filter, what is found under the key of a partition is what was written of it. -/
theorem normalized_eq (lists : Lists { reader with filter := filter } disk placed)
    (member : one ∈ placed) {found : Partition}
    (returned : reader.partition? disk one.partition.key = .ok (some found)) :
    one.partition.normalized = found := by
  rw [partition?_withFilter (mayContain_of_partition? returned) (lists.admits one member),
    lists.partition?_eq_partitionAt member] at returned
  by_cases fits : one.partition.UnitsFit
  · rw [lists.partitionAt member fits] at returned
    exact Option.some.inj (Except.ok.inj returned)
  · obtain ⟨length, place, -, refused⟩ := lists.partitionAt_of_large member fits
    rw [refused] at returned
    cases returned

/-- With any filter, what is found under the keys of a table is what was written of its partitions. -/
theorem map_normalized_eq (lists : Lists { reader with filter := filter } disk placed)
    {found : List Partition}
    (returned : reader.keys.mapM (reader.partition? disk) = .ok (found.map some)) :
    (placed.map fun one => one.partition.normalized) = found := by
  have keys : reader.keys = placed.map fun one => one.partition.key := lists.keys
  rw [Except.mapM_eq_ok_iff, keys, List.forall₂_map_left_iff, List.forall₂_map_right_iff] at returned
  have among := (List.forall₂_and_left placed found).2 ⟨fun one member => member, returned⟩
  rw [← List.forall₂_eq_eq_eq, List.forall₂_map_left_iff]
  exact among.imp fun one found ⟨member, same⟩ => lists.normalized_eq member same

/-- With a filter that admits its keys every partition of a table is found. -/
theorem mapM_partition? (lists : Lists { reader with filter := filter } disk placed)
    (units : ∀ one ∈ placed, one.partition.UnitsFit)
    (admitted : ∀ key ∈ reader.keys, reader.mayContain key = true) :
    reader.keys.mapM (reader.partition? disk) =
      .ok (placed.map fun one => some one.partition.normalized) := by
  have keys : reader.keys = placed.map fun one => one.partition.key := lists.keys
  have serves : Serves { reader with filter := filter } disk placed := ⟨lists, units⟩
  rw [Except.mapM_eq_ok_iff, keys, List.forall₂_map_left_iff, List.forall₂_map_right_iff,
    List.forall₂_same]
  intro one member
  have listed : one.partition.key ∈ reader.keys := keys ▸ List.mem_map_of_mem member
  rw [partition?_withFilter (admitted _ listed) (lists.admits one member), serves.partition? member]

end Lists

end Reader

/-- The statistics of partitions that are counted afresh. -/
def WriterPlan.collect (plan : WriterPlan) (partitions : List Partition) : Statistics :=
  partitions.foldl Statistics.add (.empty plan.settings.falsePositiveChance.toBits)

/-- Statistics count the partitions that are found, and one row more for each empty static row. -/
theorem WriterPlan.statistics_of_run (plan : WriterPlan) (partitions : List Partition)
    (conclusion : Conclusion) (store : Store)
    (keeps : ∀ component, (plan.medium.sink component).keeps = true)
    (apart : plan.descriptor.IsApart (plan.site store))
    (committed : (plan.run partitions conclusion store).IsCommitted) (reader : Reader)
    (opens : plan.Opens partitions conclusion store reader) :
    let disk := (plan.run partitions conclusion store).store.disk
    (reader.keys.Pairwise fun left right => compare left right = .lt) ∧
    (∀ found : List Partition, reader.keys.mapM (reader.partition? disk) = .ok (found.map some) →
      reader.statistics = (plan.collect found).addRows (.ofNat (partitions.countP fun partition =>
        partition.hasEmptyStaticRow && !partition.isEmpty))) ∧
    ((∀ key ∈ reader.keys, reader.mayContain key = true) →
      (∀ partition ∈ partitions, partition.UnitsFit) →
      ∃ found : List Partition, reader.keys.mapM (reader.partition? disk) = .ok (found.map some)) := by
  dsimp only
  obtain ⟨placed, progress, data, index, files⟩ := files_of_committed keeps apart committed
  obtain ⟨lists, same⟩ := files.opened reader opens
  have keys : reader.keys = placed.map fun one => one.partition.key := lists.keys
  refine ⟨keys ▸ lists.ascending, fun found returned => ?_, fun admitted units => ?_⟩
  · rw [same, files.counted, Statistics.foldl_add_eq, List.map_map, files.places.partitions_eq,
      List.countP_filter, ← lists.map_normalized_eq returned]
    rfl
  · refine ⟨placed.map fun one => one.partition.normalized, ?_⟩
    rw [lists.mapM_partition? (files.places.units units) admitted, List.map_map]
    rfl

/-- A deleted partition with an empty static row. -/
def Partition.hollow : Partition := ⟨.ofBytes [0], ⟨7, 1⟩, some (.ofCells [] .live []), []⟩

namespace WriterPlan

/-- A table with this partition admits its key, counts a row, and has none under the key. -/
theorem load_hollow :
    let run := unfiltered.run [.hollow] .finish ⟨.empty, []⟩
    run.IsCommitted ∧ ∃ reader, Reader.load run.store.disk unfiltered.descriptor = .ok reader ∧
      (∀ key ∈ reader.keys, reader.mayContain key = true) ∧ reader.statistics.rows = 1 ∧
      reader.keys.mapM (reader.partition? run.store.disk) =
        .ok ([Partition.tombstone].map some) := by
  obtain ⟨committed, outcome⟩ :
      let run := unfiltered.run [.hollow] .finish ⟨.empty, []⟩
      run.IsCommitted ∧
        ((Reader.load run.store.disk unfiltered.descriptor).toOption.map fun reader =>
          (reader.keys.all reader.mayContain, reader.statistics.rows,
            (reader.keys.mapM (reader.partition? run.store.disk)).toOption)) =
              some (true, 1, some [some .tombstone]) := by
    decide +kernel
  obtain ⟨reader, loaded, same⟩ := Option.map_eq_some_iff.1 outcome
  obtain ⟨admits, same⟩ := Prod.mk.inj same
  obtain ⟨rows, returned⟩ := Prod.mk.inj same
  exact ⟨committed, reader, Except.toOption_eq_some_iff.1 loaded, List.all_eq_true.1 admits, rows,
    Except.toOption_eq_some_iff.1 returned⟩

/-- Of a partition with an empty static row this row is counted on top of what is found. -/
theorem statistics_of_run_hollow :
    ∃ (reader : Reader) (found : List Partition),
      Reader.load (unfiltered.run [.hollow] .finish ⟨.empty, []⟩).store.disk
        unfiltered.descriptor = .ok reader ∧
      reader.statistics = (unfiltered.collect found).addRows 1 := by
  have vacant : unfiltered.descriptor.IsVacant (unfiltered.site ⟨.empty, []⟩) :=
    Descriptor.isVacant_of_names (by decide +kernel)
  have units : ∀ partition ∈ [Partition.hollow], partition.UnitsFit := by decide +kernel
  obtain ⟨committed, reader, loaded, admits, -⟩ := load_hollow
  obtain ⟨-, counted, returned⟩ := statistics_of_run unfiltered [.hollow] .finish ⟨.empty, []⟩
    (fun _ => rfl) vacant.isApart committed reader (.inr loaded)
  obtain ⟨found, same⟩ := returned admits units
  have hidden : [Partition.hollow].countP
      (fun partition => partition.hasEmptyStaticRow && !partition.isEmpty) = 1 := by decide +kernel
  have statistics := counted found same
  rw [hidden] at statistics
  exact ⟨reader, found, loaded, statistics⟩

/-- The statistics of this table are not those of the partition that is found in it. -/
theorem statistics_ne_collect :
    let run := unfiltered.run [.hollow] .finish ⟨.empty, []⟩
    run.IsCommitted ∧ ∃ (reader : Reader) (found : List Partition),
      Reader.load run.store.disk unfiltered.descriptor = .ok reader ∧
      reader.keys.mapM (reader.partition? run.store.disk) = .ok (found.map some) ∧
      reader.statistics.rows = 1 ∧ (unfiltered.collect found).rows = 0 ∧
      reader.statistics ≠ unfiltered.collect found := by
  obtain ⟨committed, reader, loaded, -, rows, returned⟩ := load_hollow
  have none : (unfiltered.collect [.tombstone]).rows = 0 := by decide +kernel
  refine ⟨committed, reader, [.tombstone], loaded, returned, rows, none, fun equal => ?_⟩
  rw [← equal, rows] at none
  cases none

end WriterPlan

end SortedTable

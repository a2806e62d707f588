import SortedTable.Proofs.Disorder
import SortedTable.Proofs.Flush

namespace SortedTable

/-- The partitions that a table serves, as a buffer shows them. -/
theorem Reader.Serves.partition?_of_flush {blockSize : UInt64} {reader : Reader} {disk : Disk}
    {placed : List (Placed blockSize)} (serves : reader.Serves disk placed) {memtable : Memtable}
    (same : (placed.map fun one => one.partition) =
      memtable.toList.filter fun partition => !partition.isEmpty) (key : Key) :
    reader.partition? disk key =
      .ok ((memtable.partition? key).filter fun partition => !partition.isEmpty) := by
  have looked : Placed.lookup placed key = ((memtable.partition? key).filter fun partition =>
      !partition.isEmpty).map Partition.normalized := by
    rw [← Memtable.find?_filter_toList, ← same, List.find?_map, Option.map_map]
    rfl
  have shown : ((memtable.partition? key).filter fun partition => !partition.isEmpty).map
      Partition.normalized = (memtable.partition? key).filter fun partition => !partition.isEmpty := by
    rcases held : memtable.partition? key with - | partition
    · rfl
    · obtain ⟨contents, -, rfl⟩ := Option.map_eq_some_iff.1 held
      rw [Option.filter_some]
      split
      · rw [Option.map_some, contents.normalized_partition]
      · rfl
  rw [serves.partition?_eq, looked, shown]

/-- A flushed table returns exactly the partitions of the buffer, in the order of their keys. -/
theorem Memtable.flush_keeps_partitions (memtable : Memtable) (plan : WriterPlan) (store : Store) :
    (∀ previous current, (memtable.flush plan store).1 ≠ .error (.outOfOrder previous current)) ∧
      ∀ reader later, memtable.flush plan store = (.ok reader, later) →
        (∀ component, (plan.medium.sink component).keeps = true) →
        plan.descriptor.IsVacant (plan.site store) →
        (∀ partition ∈ memtable.toList, partition.UnitsFit) →
        (∀ key, reader.partition? later.disk key =
          .ok ((memtable.partition? key).filter fun partition => !partition.isEmpty)) ∧
        reader.keys =
          (memtable.toList.filter fun partition => !partition.isEmpty).map Partition.key ∧
        ∀ key ∈ reader.keys, reader.mayContain key = true := by
  refine ⟨fun previous current failed => memtable.isOrderly_flush plan store _ failed trivial, ?_⟩
  intro reader later flushed keeps vacant units
  obtain ⟨placed, serves, same⟩ := serves_of_flush keeps vacant units flushed
  refine ⟨serves.partition?_of_flush same, ?_, ?_⟩
  · rw [serves.keys, ← same, List.map_map]
    rfl
  · rw [serves.keys]
    intro key member
    obtain ⟨one, present, rfl⟩ := List.mem_map.1 member
    exact serves.admits one present

/-- A buffer with a row below a static row, a deletion, and a deletion that deletes nothing. -/
def Memtable.sample : Memtable :=
  (((({} : Memtable).put (.ofBytes [4]) [[1]] ⟨"name", 5, some [7]⟩).putStatic (.ofBytes [4])
    ⟨"total", 2, none⟩).deletePartition (.ofBytes [5]) .live).deletePartition (.ofBytes [0]) ⟨7, 1⟩

/-- Of the three keys in a buffer the one that was touched without effect is not in the table. -/
theorem Memtable.flush_keeps_partitions_sample :
    ∃ reader later, sample.flush .unfiltered ⟨.empty, []⟩ = (.ok reader, later) ∧
      reader.keys = [.ofBytes [4], .ofBytes [0]] ∧
      reader.partition? later.disk (.ofBytes [4]) = .ok (sample.partition? (.ofBytes [4])) ∧
      reader.partition? later.disk (.ofBytes [5]) = .ok none := by
  have flushed : sample.flush .unfiltered ⟨.empty, []⟩ =
      (.ok ((sample.flush .unfiltered ⟨.empty, []⟩).1.toOption.getD default),
        (sample.flush .unfiltered ⟨.empty, []⟩).2) :=
    Prod.ext (Except.eq_ok_getD (by decide +kernel)) rfl
  have vacant : WriterPlan.unfiltered.descriptor.IsVacant (WriterPlan.unfiltered.site ⟨.empty, []⟩) :=
    Descriptor.isVacant_of_names (by decide +kernel)
  obtain ⟨stored, keys, -⟩ := (flush_keeps_partitions sample .unfiltered ⟨.empty, []⟩).2 _ _ flushed
    (fun _ => rfl) vacant (by decide +kernel)
  refine ⟨_, _, flushed, keys.trans (by decide +kernel), (stored _).trans ?_, (stored _).trans ?_⟩
  · exact congrArg Except.ok (by decide +kernel)
  · exact congrArg Except.ok (by decide +kernel)

end SortedTable

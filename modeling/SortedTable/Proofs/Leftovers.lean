import Mathlib.Data.List.Nodup
import SortedTable.Proofs.RoundTrip

namespace SortedTable

/-- On a disk on which every file has one name those of a table are apart. -/
theorem Descriptor.isApart_of_nodup {descriptor : Descriptor} {disk : Disk}
    (distinct : ((disk.entries.filter fun entry => entry.2 ≠ .folder).map Prod.snd).Nodup) :
    descriptor.IsApart disk := by
  intro folder _ isFinal component isFinal' other id held held'
  have listed (label : Bool) (part : Component)
      (found : disk.node? (folder ++ [descriptor.nameOf label part]) = some (.file id)) :
      (folder ++ [descriptor.nameOf label part], Node.file id) ∈
        disk.entries.filter fun entry => entry.2 ≠ .folder := by
    rw [Disk.node?_of_isProper
      (Path.isProper_concat _ (descriptor.isName_nameOf label part).proper)] at found
    obtain ⟨before, after, same, -⟩ := List.lookup_eq_some_iff.1 found
    simp [same]
  have same := List.inj_on_of_nodup_map distinct (listed isFinal component held)
    (listed isFinal' other held') rfl
  exact eq_of_concat_nameOf (congrArg Prod.fst same)

/-- The folder of the table has no filter under its final name. -/
def Descriptor.LacksFilter (descriptor : Descriptor) (disk : Disk) : Prop :=
  ∀ folder, descriptor.ResidesIn disk folder →
    disk.node? (folder ++ [descriptor.nameOf true .filter]) = none

/-- An open table stays open with another filter. -/
theorem Reader.ofParts_withFilter {medium : Medium} {disk : Disk} {descriptor : Descriptor}
    {filter : Filter} {statistics : Statistics} {reader : Reader}
    (handed : ofParts medium disk descriptor filter statistics = .ok reader) (other : Filter) :
    ofParts medium disk descriptor other statistics = .ok { reader with filter := other } := by
  obtain ⟨index, data, same, -, counted, whole⟩ := ofParts_eq_ok_iff.1 handed
  exact ofParts_eq_ok_iff.2 ⟨index, data, same, rfl, counted,
    whole.index, whole.data, whole.small, whole.summary, whole.counted⟩

/-- Of the files that had its names before, a committed table keeps nothing but perhaps the filter. -/
theorem WriterPlan.load_of_leftovers (plan : WriterPlan) (partitions : List Partition)
    (conclusion : Conclusion) (store : Store)
    (keeps : ∀ component, (plan.medium.sink component).keeps = true)
    (apart : plan.descriptor.IsApart (plan.site store))
    (committed : (plan.run partitions conclusion store).IsCommitted)
    (units : ∀ partition ∈ partitions, partition.UnitsFit)
    (promoted : ∀ attempt ∈ (plan.run partitions conclusion store).attempts, ∀ position,
      attempt.answer = .ok (some position) →
      attempt.partition.IndexFits plan.settings.blockSize position) :
    let run := plan.run partitions conclusion store
    ∃ reader : Reader,
      reader.keys = (partitions.filter fun partition => !partition.isEmpty).map Partition.key ∧
      (∀ partition ∈ partitions, partition.isEmpty = false →
        reader.mayContain partition.key = true ∧
        reader.partition? run.store.disk partition.key = .ok (some partition.normalized)) ∧
      (∀ key ∉ reader.keys, reader.partition? run.store.disk key = .ok none) ∧
      Reader.load run.store.disk plan.descriptor =
        (plan.descriptor.loadFilter run.store.disk).map ({ reader with filter := · }) ∧
      (reader.filter.isInformative = true ∨ plan.descriptor.LacksFilter (plan.site store) →
        Reader.load run.store.disk plan.descriptor = .ok reader) := by
  obtain ⟨opened, committed⟩ := committed
  obtain ⟨placed, folder, progress, stage, data, index, fields, places, ended, gathers, laid,
    encoded, follows, -⟩ := follows_of_committed apart committed
  obtain ⟨reader, lists, opens⟩ :=
    Reader.ofParts_of_follows keeps gathers laid (places.entries_iff.2 promoted) follows
  have serves : reader.Serves stage.store.disk placed := ⟨lists, places.units units⟩
  have handed := opens .sound
  have own : reader.filter = progress.filter := (Reader.ofParts_eq_ok_iff.1 handed).2.2.2.1
  have loaded : Reader.load stage.store.disk plan.descriptor =
      (plan.descriptor.loadFilter stage.store.disk).map ({ reader with filter := · }) := by
    rw [Reader.load_eq_of_follows keeps encoded follows]
    cases plan.descriptor.loadFilter stage.store.disk with
    | error cause => rfl
    | ok filter => exact Reader.ofParts_withFilter handed filter
  dsimp only
  rw [ended, Store.disk_deliver]
  refine ⟨reader, ?_, fun partition member full => ?_,
    fun key missing => Reader.partition?_of_notMem missing _, loaded, fun found => ?_⟩
  · rw [serves.keys, ← places.partitions_eq, List.map_map]
    rfl
  · have member' : partition ∈ placed.map fun one => one.partition := by
      rw [places.partitions_eq, List.mem_filter, full]
      exact ⟨member, rfl⟩
    obtain ⟨one, among, rfl⟩ := List.mem_map.1 member'
    exact ⟨serves.admits one among, serves.partition? among⟩
  · rw [own] at found
    rw [loaded, Reader.loadFilter_of_follows gathers.readable (keeps .filter)
      (found.imp id fun lacks => lacks folder follows.resides) follows, ← own]
    rfl

namespace WriterPlan

/-- A folder with a piece of unfinished data of a table and with the filter of other keys. -/
def interrupted : Disk :=
  Disk.empty.applyAll [.createFolder ["tables"],
    .create ["tables", unfiltered.descriptor.temporaryName .data] 0, .write 0 0 [0, 1, 9],
    .create ["tables", unfiltered.descriptor.fileName .filter] 1,
    .write 1 0 ((Filter.bloom default).storedFields .current).flatten]

/-- A partition that is written over what was left is in the files of the new table. -/
theorem load_of_leftovers_tombstone :
    ∃ reader : Reader, reader.keys = [.ofBytes [0]] ∧ reader.mayContain (.ofBytes [0]) = true ∧
      Reader.load (unfiltered.run [.tombstone] .finish ⟨interrupted, []⟩).store.disk
        unfiltered.descriptor = .ok { reader with filter := .bloom default } := by
  have apart : unfiltered.descriptor.IsApart (unfiltered.site ⟨interrupted, []⟩) :=
    Descriptor.isApart_of_nodup (by decide +kernel)
  obtain ⟨committed, single, found⟩ :
      let run := unfiltered.run [.tombstone] .finish ⟨interrupted, []⟩
      run.IsCommitted ∧ (∀ attempt ∈ run.attempts, attempt.partition.elements.length ≤ 1) ∧
        (unfiltered.descriptor.loadFilter run.store.disk).toOption = some (.bloom default) := by
    decide +kernel
  obtain ⟨reader, keys, returned, -, loaded, -⟩ := load_of_leftovers unfiltered [.tombstone] .finish
    ⟨interrupted, []⟩ (fun _ => rfl) apart committed (by decide +kernel)
    fun attempt member position _ => Partition.indexFits_of_single (single attempt member) _ position
  rw [Except.toOption_eq_some_iff.1 found] at loaded
  exact ⟨reader, keys, (returned _ List.mem_cons_self rfl).1, loaded⟩

/-- The filter that was left over hides the partition of the new table. -/
theorem misses_of_leftover :
    let run := unfiltered.run [.tombstone] .finish ⟨interrupted, []⟩
    unfiltered.descriptor.isCommitted interrupted = false ∧ run.IsCommitted ∧
      Partition.tombstone.isEmpty = false ∧
      ∃ reader, Reader.load run.store.disk unfiltered.descriptor = .ok reader ∧
        reader.mayContain Partition.tombstone.key = false ∧
        reader.partition? run.store.disk Partition.tombstone.key = .ok none := by
  obtain ⟨uncommitted, committed, hidden⟩ :
      let run := unfiltered.run [.tombstone] .finish ⟨interrupted, []⟩
      unfiltered.descriptor.isCommitted interrupted = false ∧ run.IsCommitted ∧
        (Reader.load run.store.disk unfiltered.descriptor).toOption.map
          (·.mayContain Partition.tombstone.key) = some false := by
    decide +kernel
  obtain ⟨reader, loaded, absent⟩ := Option.map_eq_some_iff.1 hidden
  refine ⟨uncommitted, committed, rfl, reader, Except.toOption_eq_some_iff.1 loaded, absent, ?_⟩
  rw [Reader.partition?, Reader.entry?, absent]
  rfl

end WriterPlan

end SortedTable

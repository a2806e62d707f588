import SortedTable.Proofs.Layout.Table
import SortedTable.Reader
import SortedTable.Writer.Stage

namespace SortedTable

/-- Of keys that ascend strictly none is out of order. -/
theorem firstOutOfOrder_of_pairwise {keys : List Key}
    (ascending : keys.Pairwise fun left right => compare left right = .lt) :
    firstOutOfOrder keys = none := by
  induction keys with
  | nil => rfl
  | cons first rest ih =>
      obtain ⟨below, later⟩ := List.pairwise_cons.1 ascending
      cases rest with
      | nil => rfl
      | cons second rest =>
          rw [firstOutOfOrder, if_pos (below second List.mem_cons_self)]
          exact ih later

/-- What a table with these partitions has under a key. -/
def Placed.lookup {blockSize : UInt64} (placed : List (Placed blockSize)) (key : Key) :
    Option Partition :=
  (placed.find? fun one => one.partition.key = key).map fun one => one.partition.normalized

namespace Descriptor

section

variable {descriptor : Descriptor} {disk : Disk} {id : Nat}

/-- The statistics of a table are what its file decodes to. -/
theorem loadStatistics_of_find
    (found : disk.find (descriptor.finalPath .statistics) = .ok (.file id)) :
    descriptor.loadStatistics disk = Statistics.decode (disk.content id) := by
  have opened : descriptor.open? disk .statistics = .ok (.file id) := liftIo_eq_ok_iff.2 found
  rw [loadStatistics, opened]
  rfl

/-- The filter of a table is what its file decodes to. -/
theorem loadFilter_of_find (found : disk.find (descriptor.finalPath .filter) = .ok (.file id)) :
    descriptor.loadFilter disk =
      ((Filter.load descriptor.version.filterFormat (disk.content id)).map Prod.fst).mapError
        .filter := by
  rw [loadFilter, found]
  dsimp only [Disk.read]
  cases Filter.load descriptor.version.filterFormat (disk.content id) <;> rfl

end

/-- The file of a component is opened as it was and has the bytes that it had. -/
structure KeepsFile (descriptor : Descriptor) (disk later : Disk) (component : Component) : Prop where
  find : ∀ node, later.find (descriptor.finalPath component) = .ok node ↔
    disk.find (descriptor.finalPath component) = .ok node
  read : ∀ node, disk.find (descriptor.finalPath component) = .ok node →
    later.read node = disk.read node

namespace KeepsFile

variable {descriptor : Descriptor} {disk later : Disk} {component : Component}

theorem isCommitted (keeps : descriptor.KeepsFile disk later .contents) :
    descriptor.isCommitted later = descriptor.isCommitted disk := by
  rw [Bool.eq_iff_iff, Descriptor.isCommitted, Descriptor.isCommitted, Disk.exists?, Disk.exists?,
    Option.isSome_iff_exists, Option.isSome_iff_exists]
  simp only [Except.toOption_eq_some_iff, keeps.find]

theorem open? (keeps : descriptor.KeepsFile disk later component) {node : Node}
    (opened : descriptor.open? disk component = .ok node) :
    descriptor.open? later component = .ok node :=
  liftIo_eq_ok_iff.2 ((keeps.find node).2 (liftIo_eq_ok_iff.1 opened))

theorem loadStatistics (keeps : descriptor.KeepsFile disk later .statistics)
    {statistics : Statistics} (loaded : descriptor.loadStatistics disk = .ok statistics) :
    descriptor.loadStatistics later = .ok statistics := by
  obtain ⟨node, opened, decoded⟩ := Except.bind_eq_ok_iff.1 loaded
  rw [Descriptor.loadStatistics, keeps.open? opened, Except.ok_bind,
    keeps.read node (liftIo_eq_ok_iff.1 opened)]
  exact decoded

theorem loadFilter (keeps : descriptor.KeepsFile disk later .filter) :
    descriptor.loadFilter later = descriptor.loadFilter disk := by
  rw [Descriptor.loadFilter, Descriptor.loadFilter]
  cases found : disk.find (descriptor.finalPath .filter) with
  | ok node =>
      rw [(keeps.find node).2 found]
      dsimp only
      rw [keeps.read node found]
  | error cause =>
      cases found' : later.find (descriptor.finalPath .filter) with
      | error => rfl
      | ok node => cases found.symm.trans ((keeps.find node).1 found')

end KeepsFile

end Descriptor

namespace Reader

/-- The files of an open table, and the summary that its index gives. -/
structure IsOpenOn (reader : Reader) (disk : Disk) : Prop where
  index : reader.descriptor.open? disk .index = .ok reader.index
  data : reader.descriptor.open? disk .data = .ok reader.data
  small : reader.statistics.partitions.toNat ≤ summaryLimit
  summary : ∃ bytes, (liftIo (disk.read reader.index) : Except TableError Bytes) = .ok bytes ∧
    summarize bytes = .ok reader.summary
  counted : reader.summary.length = reader.statistics.partitions.toNat

/-- A medium hands over a table if it is whole and the medium does not fail. -/
theorem ofParts_eq_ok_iff {medium : Medium} {disk : Disk} {descriptor : Descriptor}
    {filter : Filter} {statistics : Statistics} {reader : Reader} :
    ofParts medium disk descriptor filter statistics = .ok reader ↔
      checkMedium medium .index = .ok () ∧ checkMedium medium .data = .ok () ∧
      reader.descriptor = descriptor ∧ reader.filter = filter ∧ reader.statistics = statistics ∧
      reader.IsOpenOn disk := by
  unfold ofParts
  constructor
  · intro opened
    obtain ⟨_, indexSound, opened⟩ := Except.bind_eq_ok_iff.1 opened
    obtain ⟨index, foundIndex, opened⟩ := Except.bind_eq_ok_iff.1 opened
    split at opened
    · cases opened
    · rename_i small
      obtain ⟨bytes, read, opened⟩ := Except.bind_eq_ok_iff.1 opened
      obtain ⟨summary, listed, opened⟩ := Except.bind_eq_ok_iff.1 opened
      split at opened
      · cases opened
      · rename_i counted
        obtain ⟨_, dataSound, opened⟩ := Except.bind_eq_ok_iff.1 opened
        obtain ⟨data, foundData, opened⟩ := Except.bind_eq_ok_iff.1 opened
        cases Except.pure_eq_ok_iff.1 opened
        exact ⟨indexSound, dataSound, rfl, rfl, rfl, foundIndex, foundData, Nat.not_lt.1 small,
          ⟨bytes, read, listed⟩, not_not.1 counted⟩
  · rintro ⟨indexSound, dataSound, rfl, rfl, rfl, whole⟩
    obtain ⟨bytes, read, listed⟩ := whole.summary
    rw [indexSound, Except.ok_bind, whole.index, Except.ok_bind, if_neg (Nat.not_lt.2 whole.small)]
    dsimp only
    rw [read, Except.ok_bind, listed, Except.ok_bind, if_neg (not_not.2 whole.counted),
      dataSound, Except.ok_bind, whole.data]
    rfl

/-- A table is opened if it is committed and all that is read of it is whole. -/
theorem load_eq_ok_iff {disk : Disk} {descriptor : Descriptor} {reader : Reader} :
    load disk descriptor = .ok reader ↔
      reader.descriptor = descriptor ∧ descriptor.isCommitted disk = true ∧
      descriptor.loadStatistics disk = .ok reader.statistics ∧
      descriptor.loadFilter disk = .ok reader.filter ∧ reader.IsOpenOn disk := by
  unfold load
  split
  · rename_i committed
    rw [Except.bind_eq_ok_iff]
    constructor
    · rintro ⟨statistics, loaded, opened⟩
      obtain ⟨filter, loaded', opened⟩ := Except.bind_eq_ok_iff.1 opened
      obtain ⟨-, -, same, rfl, rfl, whole⟩ := ofParts_eq_ok_iff.1 opened
      exact ⟨same, committed, loaded, loaded', whole⟩
    · rintro ⟨same, -, loaded, loaded', whole⟩
      exact ⟨_, loaded, Except.bind_eq_ok_iff.2
        ⟨_, loaded', ofParts_eq_ok_iff.2 ⟨rfl, rfl, same, rfl, rfl, whole⟩⟩⟩
  · rename_i uncommitted
    exact ⟨nofun, fun opened => absurd opened.2.1 uncommitted⟩

/-- A table is opened as it was if its data is found and all its other files are as they were. -/
theorem load_of_keepsFile {disk later : Disk} {descriptor : Descriptor} {reader : Reader}
    (keeps : ∀ component, component ≠ .data → descriptor.KeepsFile disk later component)
    (data : ∀ node, disk.find (descriptor.finalPath .data) = .ok node →
      later.find (descriptor.finalPath .data) = .ok node)
    (loaded : load disk descriptor = .ok reader) : load later descriptor = .ok reader := by
  obtain ⟨rfl, committed, statistics, filter, whole⟩ := load_eq_ok_iff.1 loaded
  obtain ⟨bytes, read, listed⟩ := whole.summary
  have contents := keeps .contents nofun
  have index := keeps .index nofun
  refine load_eq_ok_iff.2 ⟨rfl, contents.isCommitted.trans committed,
    (keeps .statistics nofun).loadStatistics statistics,
    (keeps .filter nofun).loadFilter.trans filter, index.open? whole.index,
    liftIo_eq_ok_iff.2 (data _ (liftIo_eq_ok_iff.1 whole.data)), whole.small, ⟨bytes, ?_, listed⟩,
    whole.counted⟩
  rw [index.read _ (liftIo_eq_ok_iff.1 whole.index)]
  exact read

/-- An index is summarized if it can be scanned to its end and its keys ascend. -/
theorem summarize_eq_ok_iff {index : Bytes} {summary : List (Key × UInt64)} :
    summarize index = .ok summary ↔ ∃ entries, IndexEntry.scan index = (entries, none) ∧
      firstOutOfOrder (entries.map ScannedEntry.key) = none ∧
      summary = entries.map fun scanned => (scanned.key, scanned.position) := by
  rw [summarize]
  rcases IndexEntry.scan index with ⟨entries, fault⟩
  dsimp only
  split
  · rename_i disorder
    refine ⟨nofun, ?_⟩
    rintro ⟨_, same, ordered, -⟩
    cases same
    cases disorder.symm.trans ordered
  · rename_i ordered
    cases fault with
    | some error => exact ⟨nofun, nofun⟩
    | none =>
        constructor
        · rintro ⟨⟩
          exact ⟨entries, rfl, ordered, rfl⟩
        · rintro ⟨_, same, -, rfl⟩
          cases same
          rfl

/-- An open table whose summary lists these partitions and whose files hold them. -/
structure Lists {blockSize : UInt64} (reader : Reader) (disk : Disk)
    (placed : List (Placed blockSize)) : Prop where
  summary : reader.summary = placed.map fun one => (one.partition.key, one.position.index)
  ascending : (placed.map fun one => one.partition.key).Pairwise fun left right =>
    compare left right = .lt
  entries : ∀ one ∈ placed, one.EntryFits
  admits : ∀ one ∈ placed, reader.mayContain one.partition.key = true
  stored : ∃ data index : Nat, reader.data = .file data ∧ reader.index = .file index ∧
    data < disk.contents.size ∧ index < disk.contents.size ∧
    Laid blockSize placed (disk.content data) (disk.content index) ∧
    (disk.content data).length ≤ Stage.maxFileBytes ∧
    (disk.content index).length ≤ Stage.maxFileBytes

/-- An open table from which all partitions in its files can be read. -/
structure Serves {blockSize : UInt64} (reader : Reader) (disk : Disk)
    (placed : List (Placed blockSize)) : Prop extends Lists reader disk placed where
  units : ∀ one ∈ placed, one.partition.UnitsFit

/-- The summary of an index lists the partitions whose entries it holds. -/
theorem summarize_of_laid {blockSize : UInt64} {placed : List (Placed blockSize)}
    {data index : Bytes} (laid : Laid blockSize placed data index)
    (fits : ∀ one ∈ placed, one.EntryFits)
    (ascending : (placed.map fun one => one.partition.key).Pairwise fun left right =>
      compare left right = .lt) :
    summarize index = .ok (placed.map fun one => (one.partition.key, one.position.index)) := by
  refine summarize_eq_ok_iff.2 ⟨_, laid.scan_index fits, ?_, by rw [List.map_map]; rfl⟩
  rw [List.map_map]
  exact firstOutOfOrder_of_pairwise ascending

/-- An index with an entry that is too large for a reader is not summarized. -/
theorem summarize_of_large {blockSize : UInt64} {placed : List (Placed blockSize)}
    {data index : Bytes} (laid : Laid blockSize placed data index)
    (large : ¬ ∀ one ∈ placed, one.EntryFits)
    (ascending : (placed.map fun one => one.partition.key).Pairwise fun left right =>
      compare left right = .lt) :
    ∃ length, maxPromotedBytes < length ∧
      summarize index = .error (.corrupt (.promotedIndexTooLarge length)) := by
  obtain ⟨front, length, below, exceeds, stopped⟩ := laid.scan_of_large large
  have ordered : firstOutOfOrder ((front.map Placed.scanned).map ScannedEntry.key) = none := by
    rw [List.map_map]
    exact firstOutOfOrder_of_pairwise (ascending.sublist (below.sublist.map _))
  refine ⟨length, exceeds, ?_⟩
  rw [summarize, stopped]
  dsimp only
  rw [ordered]

/-- The bytes from a position on, if the file system can hold files as long as this. -/
theorem readFrom_file (disk : Disk) (id : Nat) {position : UInt64}
    (small : position.toNat ≤ Stage.maxFileBytes) :
    readFrom disk (.file id) position = .ok ((disk.content id).drop position.toNat) := by
  have below : position.toNat < offsetLimit := Nat.lt_of_le_of_lt small (by decide)
  rw [readFrom, if_pos below]
  rfl

section Search

variable {key : Key} {position : UInt64} {summary : List (Key × UInt64)}

/-- Halving only drops items. -/
theorem mem_of_narrow {item : Key × UInt64} (member : item ∈ narrow key summary) :
    item ∈ summary := by
  fun_induction narrow key summary with
  | case1 summary long middle inside above ih => exact List.mem_of_mem_take (ih member)
  | case2 summary long middle inside below ih => exact List.mem_of_mem_drop (ih member)
  | case3 summary short => exact member

theorem length_narrow_le (key : Key) (summary : List (Key × UInt64)) :
    (narrow key summary).length ≤ 1 := by
  fun_induction narrow key summary with
  | case1 summary long middle inside above ih => exact ih
  | case2 summary long middle inside below ih => exact ih
  | case3 summary short => exact Nat.le_of_not_lt short

/-- Halving an ascending summary does not drop the item of the key. -/
theorem mem_narrow (ascending : summary.Pairwise fun left right => compare left.1 right.1 = .lt)
    (member : (key, position) ∈ summary) : (key, position) ∈ narrow key summary := by
  fun_induction narrow key summary with
  | case3 summary short => exact member
  | case1 summary long middle inside above ih =>
      have half : middle ≤ summary.length - middle := by omega
      refine ih (ascending.sublist (List.take_sublist _ _)) ?_
      clear_value middle
      rw [← List.take_append_drop middle summary, List.mem_append] at member
      obtain front | back := member
      · exact (List.take_prefix_take_left half).subset front
      · -- from the middle on no key is below the one in the middle
        have later := ascending.sublist (List.drop_sublist middle summary)
        rw [List.drop_eq_getElem_cons inside, List.pairwise_cons] at later
        rw [List.drop_eq_getElem_cons inside] at back
        rcases List.mem_cons.1 back with same | behind
        · have equal : compare key key = .eq := Std.ReflCmp.compare_self
          rw [← same, equal] at above
          cases above
        · have less := later.1 _ behind
          rw [above] at less
          cases less
  | case2 summary long middle inside below ih =>
      refine ih (ascending.sublist (List.drop_sublist _ _)) ?_
      clear_value middle
      rw [← List.take_append_drop middle summary, List.mem_append] at member
      obtain front | back := member
      · have first : summary[middle] ∈ summary.drop middle := by
          rw [List.drop_eq_getElem_cons inside]
          exact List.mem_cons_self
        rw [← List.take_append_drop middle summary, List.pairwise_append] at ascending
        have less := ascending.2.2 _ front _ first
        exact absurd (Std.OrientedCmp.gt_of_lt less) below
      · exact back

/-- A position that is found belongs to the key. -/
theorem mem_of_indexPosition? {reader : Reader}
    (found : reader.indexPosition? key = some position) : (key, position) ∈ reader.summary := by
  unfold indexPosition? at found
  split at found
  · rename_i listed place behind narrowed
    split at found
    · rename_i same
      cases found
      cases Std.LawfulEqCmp.eq_of_compare same
      exact mem_of_narrow (narrowed ▸ List.mem_cons_self)
    · cases found
  · cases found

/-- In an ascending summary the position of every key is found. -/
theorem indexPosition?_of_mem {reader : Reader}
    (ascending : reader.summary.Pairwise fun left right => compare left.1 right.1 = .lt)
    (member : (key, position) ∈ reader.summary) : reader.indexPosition? key = some position := by
  have kept := mem_narrow ascending member
  have one := length_narrow_le key reader.summary
  unfold indexPosition?
  match narrowed : narrow key reader.summary with
  | [] =>
      rw [narrowed] at kept
      cases kept
  | [found] =>
      rw [narrowed] at kept
      cases List.mem_singleton.1 kept
      exact if_pos Std.ReflCmp.compare_self
  | first :: second :: others =>
      rw [narrowed] at one
      exact absurd one (by simp)

end Search

/-- A key that is not in the summary is not found, whatever the filter answers. -/
theorem entry?_of_notMem {reader : Reader} {key : Key} (missing : key ∉ reader.keys) (disk : Disk) :
    reader.entry? disk key = .ok none := by
  have nowhere : reader.indexPosition? key = none :=
    Option.eq_none_iff_forall_ne_some.2 fun position found =>
      missing (List.mem_map_of_mem (mem_of_indexPosition? found))
  unfold entry?
  rw [nowhere]
  split <;> rfl

/-- A key that two filters admit leads to the same entry with either of them. -/
theorem entry?_withFilter {reader : Reader} {filter : Filter} {key : Key}
    (admitted : reader.mayContain key = true)
    (admits : Reader.mayContain { reader with filter := filter } key = true) (disk : Disk) :
    reader.entry? disk key = Reader.entry? { reader with filter := filter } disk key := by
  unfold entry?
  rw [if_pos admitted, if_pos admits]
  rfl

/-- A key that two filters admit is found in the same way with either of them. -/
theorem partition?_withFilter {reader : Reader} {filter : Filter} {key : Key}
    (admitted : reader.mayContain key = true)
    (admits : Reader.mayContain { reader with filter := filter } key = true) (disk : Disk) :
    reader.partition? disk key = Reader.partition? { reader with filter := filter } disk key := by
  have entry := entry?_withFilter admitted admits disk
  unfold partition?
  rw [entry]
  rfl

/-- An entry is read from the index alone. -/
theorem entry?_congr {reader : Reader} {disk later : Disk}
    (index : later.read reader.index = disk.read reader.index) (key : Key) :
    reader.entry? later key = reader.entry? disk key := by
  simp only [entryAt, entry?, readFrom, index]

/-- A partition is read from the index and the data alone. -/
theorem partition?_congr {reader : Reader} {disk later : Disk}
    (index : later.read reader.index = disk.read reader.index)
    (data : later.read reader.data = disk.read reader.data) (key : Key) :
    reader.partition? later key = reader.partition? disk key := by
  simp only [partition?, partitionAt, readFrom, entry?_congr index, data]

theorem partition?_of_notMem {reader : Reader} {key : Key} (missing : key ∉ reader.keys)
    (disk : Disk) : reader.partition? disk key = .ok none := by
  rw [partition?, entry?_of_notMem missing]
  rfl

variable {blockSize : UInt64} {reader : Reader} {disk : Disk} {placed : List (Placed blockSize)}
  {one : Placed blockSize}

namespace Lists

theorem keys (lists : reader.Lists disk placed) :
    reader.keys = placed.map fun one => one.partition.key := by
  rw [Reader.keys, lists.summary, List.map_map]
  rfl

/-- The summary leads from the key of a partition to its entry. -/
theorem indexPosition? (lists : reader.Lists disk placed) (member : one ∈ placed) :
    reader.indexPosition? one.partition.key = some one.position.index := by
  apply indexPosition?_of_mem
  · rw [lists.summary, List.pairwise_map]
    exact List.pairwise_map.1 lists.ascending
  · rw [lists.summary]
    exact List.mem_map_of_mem member

theorem entryAt (lists : reader.Lists disk placed) (member : one ∈ placed) :
    reader.entryAt disk one.position.index = .ok (some (one.partition.key, one.entry)) := by
  obtain ⟨data, index, -, file, -, -, laid, -, room⟩ := lists.stored
  have words : Stage.maxFileBytes < UInt64.size := by decide
  obtain ⟨inside, decoded⟩ := laid.decode_index (by omega) member (lists.entries one member)
  rw [Reader.entryAt, file, readFrom_file disk _ (Nat.le_trans inside room), Except.ok_bind, decoded]

/-- The key of a partition is found where its entry stands. -/
theorem keyAt (lists : reader.Lists disk placed) (member : one ∈ placed) :
    reader.keyAt disk one.position.index = .ok one.partition.key := by
  rw [Reader.keyAt, lists.entryAt member]
  rfl

/-- The entry of a partition is found by its key. -/
theorem entry? (lists : reader.Lists disk placed) (member : one ∈ placed) :
    reader.entry? disk one.partition.key = .ok (some one.entry) := by
  unfold Reader.entry?
  rw [if_pos (lists.admits one member), lists.indexPosition? member]
  dsimp only
  rw [lists.entryAt member, Except.ok_bind]
  exact if_pos rfl

/-- A partition is read by its key from where it was placed. -/
theorem partition?_eq_partitionAt (lists : reader.Lists disk placed) (member : one ∈ placed) :
    reader.partition? disk one.partition.key = some <$> reader.partitionAt disk one.position.data := by
  rw [Reader.partition?, lists.entry? member, Except.ok_bind]
  rfl

/-- What is decoded where a partition was placed starts with the encoding of the partition. -/
theorem partitionAt_eq (lists : reader.Lists disk placed) (member : one ∈ placed) :
    one.position.data.toNat + one.written.encoding.bytes.length < UInt64.size ∧ ∃ rest,
      reader.partitionAt disk one.position.data =
        (Partition.decode one.position.data (one.written.encoding.bytes ++ rest)).map Prod.fst := by
  obtain ⟨data, index, file, -, -, -, laid, room, -⟩ := lists.stored
  have words : Stage.maxFileBytes < UInt64.size := by decide
  obtain ⟨inside, rest, bytes⟩ := laid.drop_data (by omega) member
  refine ⟨by omega, rest, ?_⟩
  rw [Reader.partitionAt, file, readFrom_file disk _ (by omega), Except.ok_bind, bytes]

/-- A partition of which no unit is too large is read back from where it was placed. -/
theorem partitionAt (lists : reader.Lists disk placed) (member : one ∈ placed)
    (fits : one.partition.UnitsFit) :
    reader.partitionAt disk one.position.data = .ok one.partition.normalized := by
  obtain ⟨room, rest, decoded⟩ := lists.partitionAt_eq member
  rw [decoded, one.written.encoding.reads fits _ room]
  rfl

/-- A partition of which a unit is too large is not read back. -/
theorem partitionAt_of_large (lists : reader.Lists disk placed) (member : one ∈ placed)
    (large : ¬ one.partition.UnitsFit) : ∃ length place, maxUnitBytes < length ∧
      reader.partitionAt disk one.position.data =
        .error (.corrupt (.unitTooLarge length place)) := by
  obtain ⟨room, rest, decoded⟩ := lists.partitionAt_eq member
  obtain ⟨length, place, exceeds, refused⟩ :=
    one.written.encoding.decode_of_large large one.position.data room rest
  exact ⟨length, place, exceeds, by rw [decoded, refused]; rfl⟩

end Lists

namespace Serves

/-- A partition is read back by its key. -/
theorem partition? (serves : reader.Serves disk placed) (member : one ∈ placed) :
    reader.partition? disk one.partition.key = .ok (some one.partition.normalized) := by
  rw [serves.partition?_eq_partitionAt member,
    serves.partitionAt member (serves.units one member)]
  rfl

/-- What is read under a key is what was placed under it. -/
theorem partition?_eq (serves : reader.Serves disk placed) (key : Key) :
    reader.partition? disk key = .ok (Placed.lookup placed key) := by
  unfold Placed.lookup
  cases found : placed.find? fun one => one.partition.key = key with
  | none =>
      apply partition?_of_notMem
      rw [serves.keys]
      intro member
      obtain ⟨one, present, same⟩ := List.mem_map.1 member
      exact List.find?_eq_none.1 found one present (decide_eq_true same)
  | some one =>
      have same := List.find?_some found
      rw [decide_eq_true_eq] at same
      subst same
      exact serves.partition? (List.mem_of_find?_eq_some found)

/-- An open table serves the same partitions as long as no file that there is gets other bytes. -/
theorem kept (serves : reader.Serves disk placed) {later : Disk}
    (grown : disk.contents.size ≤ later.contents.size)
    (same : ∀ id, id < disk.contents.size → later.content id = disk.content id) :
    reader.Serves later placed where
  summary := serves.summary
  ascending := serves.ascending
  entries := serves.entries
  units := serves.units
  admits := serves.admits
  stored := by
    obtain ⟨data, index, dataFile, indexFile, dataIn, indexIn, whole⟩ := serves.stored
    refine ⟨data, index, dataFile, indexFile, Nat.lt_of_lt_of_le dataIn grown,
      Nat.lt_of_lt_of_le indexIn grown, ?_⟩
    rw [same data dataIn, same index indexIn]
    exact whole

end Serves

end Reader

end SortedTable

import SortedTable.Proofs.Layout.Statistics
import SortedTable.Proofs.Reader
import SortedTable.Proofs.Writer.Placement

namespace SortedTable

namespace Disk

/-- A text that leads to a name in a folder names what is there. -/
theorem find_eq_ok_iff {disk : Disk} {folder : Path} {text name : String} {node : Node}
    (led : disk.place text = .ok (.entry folder name false))
    (short : name.utf8ByteSize ≤ Path.maxNameBytes) :
    disk.find text = .ok node ↔ disk.node? (folder ++ [name]) = some node := by
  have looked : disk.lookup folder name = .ok (disk.node? (folder ++ [name])) :=
    lookup_eq_ok_iff.2 ⟨short, rfl⟩
  unfold find locate
  rw [led, Except.ok_bind]
  dsimp only
  rw [looked, Except.ok_bind]
  rcases disk.node? (folder ++ [name]) with - | - | id
  · exact ⟨nofun, nofun⟩
  · exact ⟨fun same => by cases same; rfl, fun same => by cases same; rfl⟩
  · exact ⟨fun same => by cases same; rfl, fun same => by cases same; rfl⟩

end Disk

namespace Descriptor

variable {descriptor : Descriptor} {disk : Disk} {folder : Path} {isFinal : Bool}
  {component : Component} {node : Node}

/-- The path of a component leads to what has its name in the folder of the table. -/
theorem ResidesIn.find (resides : descriptor.ResidesIn disk folder)
    (text : Path.IsText (descriptor.pathOf isFinal component)) :
    disk.find (descriptor.pathOf isFinal component) = .ok node ↔
      disk.node? (folder ++ [descriptor.nameOf isFinal component]) = some node :=
  Disk.find_eq_ok_iff (resides.place text) (descriptor.utf8ByteSize_nameOf_le isFinal component)

/-- A path that is found leads to what has its name in the folder of the table. -/
theorem find_pathOf_iff (resides : descriptor.ResidesIn disk folder) :
    disk.find (descriptor.pathOf isFinal component) = .ok node ↔
      Path.IsText (descriptor.pathOf isFinal component) ∧
        disk.node? (folder ++ [descriptor.nameOf isFinal component]) = some node := by
  refine ⟨fun found => ?_, fun ⟨text, held⟩ => (resides.find text).2 held⟩
  obtain ⟨⟨path, there⟩, located, -⟩ := Except.map_eq_ok_iff.1 found
  obtain ⟨spot, led, -⟩ := Except.bind_eq_ok_iff.1 located
  obtain ⟨text, -⟩ := place_pathOf_iff.1 led
  exact ⟨text, (resides.find text).1 found⟩

theorem node?_of_find (resides : descriptor.ResidesIn disk folder)
    (found : disk.find (descriptor.pathOf isFinal component) = .ok node) :
    disk.node? (folder ++ [descriptor.nameOf isFinal component]) = some node :=
  ((find_pathOf_iff resides).1 found).2

end Descriptor

/-- The final path of a component of a committed table leads to its file. -/
theorem Stage.Follows.find {setting : Setting} {folder : Path} {base : Disk} {stage : Stage}
    {drafts : Drafts} (follows : stage.Follows setting folder base drafts) (component : Component)
    {bytes : Bytes} (drafted : drafts component = some ⟨bytes, false, true⟩)
    (keeps : (setting.medium.sink component).keeps = true) :
    ∃ id : Nat, stage.store.disk.find (setting.descriptor.finalPath component) = .ok (.file id) ∧
      id < stage.store.disk.contents.size ∧ stage.store.disk.content id = bytes ∧
      bytes.length ≤ Stage.maxFileBytes := by
  obtain ⟨id, node⟩ := follows.placed component _ drafted
  have shown := follows.shown component _ id drafted node
  have text := follows.text component (by rw [drafted]; exact nofun)
  have found := (follows.stays.find (Descriptor.isText_final text)).2 node
  rw [Descriptor.pathOf_true] at found
  exact ⟨id, found, Disk.lt_size_of_node? node, shown.closed rfl keeps, shown.room keeps⟩

/-- The file of a component of a committed table is opened and read. -/
theorem Stage.Follows.open? {setting : Setting} {folder : Path} {base : Disk} {stage : Stage}
    {drafts : Drafts} (follows : stage.Follows setting folder base drafts) (component : Component)
    {bytes : Bytes} (drafted : drafts component = some ⟨bytes, false, true⟩)
    (keeps : (setting.medium.sink component).keeps = true) :
    ∃ id : Nat, setting.descriptor.open? stage.store.disk component = .ok (.file id) ∧
      (liftIo (stage.store.disk.read (.file id)) : Except TableError Bytes) = .ok bytes ∧
      id < stage.store.disk.contents.size ∧ stage.store.disk.content id = bytes ∧
      bytes.length ≤ Stage.maxFileBytes := by
  obtain ⟨id, found, inside, held, room⟩ := follows.find component drafted keeps
  exact ⟨id, liftIo_eq_ok_iff.2 found, liftIo_eq_ok_iff.2 (congrArg Except.ok held), inside, held,
    room⟩

namespace Reader

variable {plan : WriterPlan} {folder : Path} {base : Disk} {stage : Stage}
  {placed : List (Placed plan.settings.blockSize)} {progress : Progress}
  {data index statistics contents : Bytes} {filter : Option Bytes}

/-- A committed table is opened with its filter and its statistics, unless the medium fails. -/
theorem ofParts_of_follows (keeps : ∀ component, (plan.medium.sink component).keeps = true)
    (gathers : Writer.Gathers placed progress)
    (laid : Laid plan.settings.blockSize placed data index)
    (entries : ∀ one ∈ placed, one.EntryFits)
    (follows : stage.Follows plan.setting folder base
      (.committed data index statistics contents filter)) :
    ∃ reader : Reader, reader.Lists stage.store.disk placed ∧
      (∀ medium, ofParts medium stage.store.disk plan.descriptor progress.filter
        progress.statistics = do
          checkMedium medium .index
          checkMedium medium .data
          pure reader) := by
  obtain ⟨indexFile, openedIndex, read, indexIn, indexHeld, indexRoom⟩ :=
    follows.open? .index rfl (keeps .index)
  obtain ⟨dataFile, openedData, -, dataIn, dataHeld, dataRoom⟩ :=
    follows.open? .data rfl (keeps .data)
  have few : placed.length ≤ Stage.maxFileBytes := Nat.le_trans laid.length_le indexRoom
  have limit : Stage.maxFileBytes < summaryLimit := by decide
  have count := gathers.toNat_partitions laid indexRoom
  have summary := summarize_of_laid laid entries gathers.ascending
  refine ⟨⟨plan.descriptor, progress.filter, progress.statistics, _, .file indexFile,
    .file dataFile⟩, ⟨rfl, gathers.ascending, entries, gathers.admits, dataFile, indexFile, rfl, rfl,
    dataIn, indexIn, ?_⟩, ?_⟩
  · rw [dataHeld, indexHeld]
    exact ⟨laid, dataRoom, indexRoom⟩
  intro medium
  change plan.descriptor.open? stage.store.disk .index = _ at openedIndex
  change plan.descriptor.open? stage.store.disk .data = _ at openedData
  unfold ofParts
  cases checkMedium medium .index with
  | error error => rfl
  | ok _ =>
      rw [Except.ok_bind, openedIndex, Except.ok_bind, if_neg (by omega), Except.ok_bind, read,
        Except.ok_bind, summary, Except.ok_bind, List.length_map, if_neg (by omega)]
      cases checkMedium medium .data with
      | error error => rfl
      | ok _ =>
          rw [Except.ok_bind, openedData]
          rfl

/-- The statistics of a committed table are read back. -/
theorem loadStatistics_of_follows {fields : List Bytes}
    (encoded : progress.statistics.fields = .ok fields)
    (keeps : (plan.medium.sink .statistics).keeps = true)
    (follows : stage.Follows plan.setting folder base
      (.committed data index fields.flatten contents filter)) :
    plan.descriptor.loadStatistics stage.store.disk = .ok progress.statistics := by
  obtain ⟨file, found, -, held, -⟩ := follows.find .statistics rfl keeps
  refine (Descriptor.loadStatistics_of_find found).trans ?_
  rw [held, Statistics.decode_of_fields encoded]

/-- A filter that stores anything has its stored form in a file. -/
theorem drafted_filter {version : Version} {held : Filter} (informative : held.isInformative = true) :
    Drafts.committed data index statistics contents (Drafts.filterBytes version held) .filter =
      some ⟨(held.storedFields version.filterFormat).flatten, false, true⟩ := by
  rw [Drafts.filterBytes, if_pos informative]
  rfl

/-- Only a filter that stores anything has a file, unless one was there before. -/
theorem informative_of_find (absent : base.node?
      (folder ++ [plan.setting.descriptor.nameOf true .filter]) = none)
    (follows : stage.Follows plan.setting folder base (.committed data index
      statistics contents (Drafts.filterBytes plan.descriptor.version progress.filter)))
    {node : Node} (found : stage.store.disk.find (plan.descriptor.finalPath .filter) = .ok node) :
    progress.filter.isInformative = true := by
  by_contra uninformative
  have free := follows.rest true .filter fun draft drafted => by
    change (Drafts.filterBytes plan.descriptor.version progress.filter).map _ = _ at drafted
    rw [Drafts.filterBytes, if_neg uninformative] at drafted
    cases drafted
  rw [absent, or_self] at free
  rw [← Descriptor.pathOf_true] at found
  cases free.symm.trans (Descriptor.node?_of_find follows.stays found)

/-- The filter of a committed table is read back, or is the one that admits every key. -/
theorem loadFilter_of_follows (readable : progress.filter.IsReadable)
    (keeps : (plan.medium.sink .filter).keeps = true)
    (absent : progress.filter.isInformative = true ∨
      base.node? (folder ++ [plan.setting.descriptor.nameOf true .filter]) = none)
    (follows : stage.Follows plan.setting folder base (.committed data index statistics contents
      (Drafts.filterBytes plan.descriptor.version progress.filter))) :
    plan.descriptor.loadFilter stage.store.disk = .ok progress.filter := by
  by_cases informative : progress.filter.isInformative = true
  · obtain ⟨file, found, -, held, -⟩ := follows.find .filter (drafted_filter informative) keeps
    refine (Descriptor.loadFilter_of_find found).trans ?_
    rw [held]
    exact congrArg (fun read => (Except.map Prod.fst read).mapError TableError.filter)
      (readable.load_storedFields informative _)
  · unfold Descriptor.loadFilter
    split
    · cases held : progress.filter with
      | alwaysPresent => rfl
      | bloom bloom =>
          rw [held] at informative
          exact absurd rfl informative
    · rename_i node found
      exact absurd (informative_of_find (absent.resolve_left informative) follows found) informative

/-- A committed table is opened with the statistics of its writer and with the filter that is found. -/
theorem load_eq_of_follows {fields : List Bytes}
    (keeps : ∀ component, (plan.medium.sink component).keeps = true)
    (encoded : progress.statistics.fields = .ok fields)
    (follows : stage.Follows plan.setting folder base (.committed data index fields.flatten contents
      filter)) :
    load stage.store.disk plan.descriptor =
      (plan.descriptor.loadFilter stage.store.disk).bind fun filter =>
        ofParts .sound stage.store.disk plan.descriptor filter progress.statistics := by
  obtain ⟨file, found, -⟩ := follows.find .contents rfl (keeps .contents)
  have found' : stage.store.disk.find (plan.descriptor.finalPath .contents) = .ok (.file file) :=
    found
  have committed : plan.descriptor.isCommitted stage.store.disk = true := by
    rw [Descriptor.isCommitted, Disk.exists?, found']
    rfl
  rw [load, if_pos committed, loadStatistics_of_follows encoded (keeps .statistics) follows,
    Except.ok_bind]
  rfl

/-- A table that was committed where no name was taken is opened with what its writer had at hand. -/
theorem load_eq_of_shows {fields : List Bytes}
    (keeps : ∀ component, (plan.medium.sink component).keeps = true)
    (readable : progress.filter.IsReadable) (encoded : progress.statistics.fields = .ok fields)
    (shows' : stage.Shows plan.setting folder base (.committed data index fields.flatten contents
      (Drafts.filterBytes plan.descriptor.version progress.filter))) :
    load stage.store.disk plan.descriptor =
      ofParts .sound stage.store.disk plan.descriptor progress.filter progress.statistics := by
  rw [load_eq_of_follows keeps encoded shows'.toFollows, loadFilter_of_follows readable
    (keeps .filter) (.inr (shows'.vacant true .filter)) shows'.toFollows]
  rfl

/-- A committed table is opened and serves the partitions that were placed. -/
theorem load_of_shows {fields : List Bytes}
    (keeps : ∀ component, (plan.medium.sink component).keeps = true)
    (gathers : Writer.Gathers placed progress)
    (laid : Laid plan.settings.blockSize placed data index)
    (entries : ∀ one ∈ placed, one.EntryFits) (units : ∀ one ∈ placed, one.partition.UnitsFit)
    (encoded : progress.statistics.fields = .ok fields)
    (shows' : stage.Shows plan.setting folder base (.committed data index fields.flatten contents
      (Drafts.filterBytes plan.descriptor.version progress.filter))) :
    ∃ reader, load stage.store.disk plan.descriptor = .ok reader ∧
      reader.Serves stage.store.disk placed := by
  obtain ⟨reader, lists, opens⟩ := ofParts_of_follows keeps gathers laid entries shows'.toFollows
  refine ⟨reader, ?_, lists, units⟩
  rw [load_eq_of_shows keeps gathers.readable encoded shows', opens]
  rfl

/-- A committed table with an entry that is too large for a reader is not opened. -/
theorem load_of_large {fields : List Bytes}
    (keeps : ∀ component, (plan.medium.sink component).keeps = true)
    (gathers : Writer.Gathers placed progress)
    (laid : Laid plan.settings.blockSize placed data index)
    (large : ¬ ∀ one ∈ placed, one.EntryFits) (encoded : progress.statistics.fields = .ok fields)
    (shows' : stage.Shows plan.setting folder base (.committed data index fields.flatten contents
      (Drafts.filterBytes plan.descriptor.version progress.filter))) :
    ∃ length, maxPromotedBytes < length ∧ load stage.store.disk plan.descriptor =
      .error (.corrupt (.promotedIndexTooLarge length)) := by
  obtain ⟨file, opened, read, -, -, room⟩ := shows'.open? .index rfl (keeps .index)
  change plan.descriptor.open? stage.store.disk .index = _ at opened
  obtain ⟨length, exceeds, refused⟩ := summarize_of_large laid large gathers.ascending
  have few : placed.length ≤ Stage.maxFileBytes := Nat.le_trans laid.length_le room
  have limit : Stage.maxFileBytes < summaryLimit := by decide
  have count := gathers.toNat_partitions laid room
  refine ⟨length, exceeds, ?_⟩
  rw [load_eq_of_shows keeps gathers.readable encoded shows', ofParts, checkMedium]
  dsimp only [Medium.sound]
  rw [Except.ok_bind, opened, Except.ok_bind, if_neg (by omega), read, Except.ok_bind, refused]
  rfl

/-- In a table that a medium hands over, every entry of the index is small enough for a reader. -/
theorem entries_of_ofParts (keeps : (plan.medium.sink .index).keeps = true)
    (laid : Laid plan.settings.blockSize placed data index)
    (follows : stage.Follows plan.setting folder base
      (.committed data index statistics contents filter))
    {medium : Medium} {reader : Reader} (handed : ofParts medium stage.store.disk plan.descriptor
      progress.filter progress.statistics = .ok reader) : ∀ one ∈ placed, one.EntryFits := by
  obtain ⟨-, -, same, -, -, whole⟩ := ofParts_eq_ok_iff.1 handed
  obtain ⟨file, opened, held, -⟩ := follows.open? .index rfl keeps
  obtain ⟨bytes, read, listed⟩ := whole.summary
  have foundIndex := whole.index
  rw [same] at foundIndex
  rw [← Except.ok.inj (opened.symm.trans foundIndex)] at read
  cases held.symm.trans read
  obtain ⟨entries, scanned, -⟩ := summarize_eq_ok_iff.1 listed
  by_contra large
  obtain ⟨front, length, -, -, stopped⟩ := laid.scan_of_large large
  rw [stopped] at scanned
  cases scanned

/-- A committed table that a medium hands over is opened again to the same. -/
theorem load_of_ofParts {fields : List Bytes}
    (keeps : ∀ component, (plan.medium.sink component).keeps = true)
    (readable : progress.filter.IsReadable) (encoded : progress.statistics.fields = .ok fields)
    (shows' : stage.Shows plan.setting folder base (.committed data index fields.flatten contents
      (Drafts.filterBytes plan.descriptor.version progress.filter)))
    {medium : Medium} {reader : Reader} (handed : ofParts medium stage.store.disk plan.descriptor
      progress.filter progress.statistics = .ok reader) :
    load stage.store.disk plan.descriptor = .ok reader := by
  obtain ⟨-, -, same, filter, statistics, whole⟩ := ofParts_eq_ok_iff.1 handed
  rw [load_eq_of_shows keeps readable encoded shows']
  exact ofParts_eq_ok_iff.2 ⟨rfl, rfl, same, filter, statistics, whole⟩

end Reader

end SortedTable

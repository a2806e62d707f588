import SortedTable.Flush
import SortedTable.Proofs.Layout.Blocks
import SortedTable.Proofs.Layout.Codec
import SortedTable.Proofs.Writer.Acceptance
import SortedTable.Proofs.Writer.Reopening

namespace SortedTable

namespace Drafts

variable {drafts next : Drafts}

/-- The files of the table have room for all that the drafts say. -/
def HaveRoom (drafts : Drafts) : Prop :=
  ∀ component draft, drafts component = some draft → draft.bytes.length ≤ Stage.maxFileBytes

theorem HaveRoom.of_update {component : Component} {draft : Draft}
    (room : HaveRoom (Function.update drafts component (some draft)))
    (longer : ∀ before, drafts component = some before → before.bytes.length ≤ draft.bytes.length) :
    drafts.HaveRoom := by
  intro other before held
  by_cases same : other = component
  · subst same
    exact Nat.le_trans (longer before held) (room other draft (Function.update_self ..))
  · apply room other before
    rw [Function.update_of_ne same]
    exact held

theorem HaveRoom.of_longer {component : Component} {before draft : Draft}
    (room : HaveRoom (Function.update drafts component (some draft)))
    (held : drafts component = some before)
    (longer : before.bytes.length ≤ draft.bytes.length) : drafts.HaveRoom := by
  apply room.of_update
  intro other held'
  cases held.symm.trans held'
  exact longer

/-- No step shortens a draft. -/
theorem HaveRoom.of_step (room : next.HaveRoom) {step : Step}
    (allowed : drafts.step step = some next) : drafts.HaveRoom := by
  cases step with
  | notify notice =>
      cases allowed
      exact room
  | create component =>
      rw [Drafts.step] at allowed
      split at allowed
      · rename_i nothing
        cases allowed
        apply room.of_update
        intro before held
        cases nothing.symm.trans held
      · cases allowed
  | write component bytes =>
      rw [Drafts.step] at allowed
      split at allowed
      · rename_i held
        cases allowed
        exact room.of_longer held (List.prefix_append _ _).length_le
      · cases allowed
  | close component =>
      rw [Drafts.step] at allowed
      split at allowed
      · rename_i held
        cases allowed
        exact room.of_longer held (Nat.le_refl _)
      · cases allowed
  | rename component =>
      rw [Drafts.step] at allowed
      split at allowed
      · rename_i held
        cases allowed
        exact room.of_longer held (Nat.le_refl _)
      · cases allowed

theorem HaveRoom.of_steps (room : next.HaveRoom) {steps : List Step}
    (allowed : drafts.steps steps = some next) : drafts.HaveRoom := by
  induction steps generalizing drafts with
  | nil =>
      cases allowed
      exact room
  | cons step rest ih =>
      obtain ⟨middle, first, further⟩ := Option.bind_eq_some_iff.1 allowed
      exact (ih further).of_step first

end Drafts

namespace Stage.Shows

variable {setting : Setting} {folder : Path} {base : Disk} {drafts next : Drafts} {stage : Stage}

/-- A component that does not exist can be created. -/
theorem fault_create (shows' : Shows setting folder base drafts stage)
    (sound : setting.medium = .sound) {component : Component}
    (text : Path.IsText (setting.descriptor.pathOf false component))
    (nothing : drafts component = none) : (stage.create setting component).2 = none := by
  have free := shows'.bare false component fun draft held => nomatch nothing.symm.trans held
  have created := Disk.create_of_nothing (setting.descriptor.utf8ByteSize_nameOf_le false component)
    (shows'.stays.place text) free
  rw [Descriptor.pathOf_false] at created
  unfold Stage.create
  rw [sound, created]
  rfl

/-- A component that has its temporary name can be given its final one. -/
theorem fault_rename (shows' : Shows setting folder base drafts stage)
    (sound : setting.medium = .sound) {component : Component} {bytes : Bytes} {isOpen : Bool}
    (held : drafts component = some ⟨bytes, isOpen, false⟩) :
    (stage.rename setting component).2 = none := by
  obtain ⟨id, node⟩ := shows'.placed component _ held
  have text := shows'.text component (by rw [held]; exact nofun)
  have free := shows'.bare true component fun draft held' => by
    cases held.symm.trans held'
    exact nofun
  have differs : setting.descriptor.nameOf false component ≠
      setting.descriptor.nameOf true component := by
    intro same
    obtain ⟨-, labels, -⟩ := Descriptor.nameOf_inj rfl same
    cases labels
  have renamed := Disk.rename_of_nothing
    (setting.descriptor.utf8ByteSize_nameOf_le false component)
    (setting.descriptor.utf8ByteSize_nameOf_le true component) differs (shows'.stays.place text)
    (shows'.stays.place (Descriptor.isText_final text)) node free
  rw [Descriptor.pathOf_false, Descriptor.pathOf_true] at renamed
  unfold Stage.rename
  rw [sound, Store.perform, renamed]
  rfl

/-- A step that the drafts allow is taken if there is room for what they say then. -/
theorem fault_perform (shows' : Shows setting folder base drafts stage)
    (sound : setting.medium = .sound)
    (texts : ∀ component, Path.IsText (setting.descriptor.pathOf false component)) {step : Step}
    (allowed : drafts.step step = some next) (room : next.HaveRoom) :
    (stage.perform setting step).2 = none := by
  cases step with
  | notify notice => rfl
  | create component =>
      rw [Drafts.step] at allowed
      split at allowed
      · rename_i nothing
        exact shows'.fault_create sound (texts component) nothing
      · cases allowed
  | write component bytes =>
      rw [Drafts.step] at allowed
      split at allowed
      · rename_i held
        cases allowed
        exact shows'.toFollows.fault_write held (by rw [sound]; rfl)
          (room component _ (Function.update_self ..))
      · cases allowed
  | close component =>
      show (stage.close setting component).2 = none
      unfold Stage.close
      rw [sound]
      split
      · rfl
      · cases setting.sync <;> rfl
  | rename component =>
      rw [Drafts.step] at allowed
      split at allowed
      · rename_i held
        exact shows'.fault_rename sound held
      · cases allowed

/-- Steps that the drafts allow are all taken. -/
theorem exists_performAll (shows' : Shows setting folder base drafts stage)
    (sound : setting.medium = .sound)
    (texts : ∀ component, Path.IsText (setting.descriptor.pathOf false component))
    {steps : List Step} (allowed : drafts.steps steps = some next) (room : next.HaveRoom) :
    ∃ later, stage.performAll setting steps = (later, none) := by
  induction steps generalizing stage drafts with
  | nil => exact ⟨stage, rfl⟩
  | cons step rest ih =>
      obtain ⟨middle, first, further⟩ := Option.bind_eq_some_iff.1 allowed
      have taken := shows'.fault_perform sound texts first (room.of_steps further)
      rcases performed : stage.perform setting step with ⟨after, fault⟩
      rw [performed] at taken
      dsimp only at taken
      subst taken
      have follows := shows'.toFollows.perform first performed
      rw [Stage.performAll, performed]
      exact ih ⟨follows, shows'.vacant⟩ further

/-- A script that the drafts allow is run if it has no fault itself. -/
theorem exists_run (shows' : Shows setting folder base drafts stage)
    (sound : setting.medium = .sound)
    (texts : ∀ component, Path.IsText (setting.descriptor.pathOf false component))
    {script : Script} (whole : script.fault = none) (allowed : drafts.steps script.steps = some next)
    (room : next.HaveRoom) :
    ∃ later, stage.run setting script = (later, none) ∧ later.Shows setting folder base next := by
  obtain ⟨later, performed⟩ := shows'.exists_performAll sound texts allowed room
  exact ⟨later, Stage.run_eq_none_iff.2 ⟨performed, whole⟩, shows'.performAll allowed performed⟩

end Stage.Shows

/-- A table none of whose names is taken is not committed. -/
theorem Descriptor.IsVacant.isCommitted {descriptor : Descriptor} {disk : Disk} {folder : Path}
    (vacant : descriptor.IsVacant disk) (resides : descriptor.ResidesIn disk folder) :
    descriptor.isCommitted disk = false := by
  rw [Descriptor.isCommitted, Disk.exists?]
  cases found : disk.find (descriptor.finalPath .contents) with
  | error cause => rfl
  | ok node =>
      rw [← Descriptor.pathOf_true] at found
      cases (vacant folder resides true .contents).symm.trans (node?_of_find resides found)

namespace Writer

variable {plan : WriterPlan} {store : Store} {folder : Path} {filter : Filter}

/-- A writer is built in a folder that is there and holds nothing of its table. -/
theorem exists_build (sound : plan.medium = .sound)
    (texts : ∀ component, Path.IsText (plan.descriptor.pathOf false component))
    (valid : plan.settings.validate = .ok ())
    (located : store.disk.locate plan.descriptor.directory = .ok (folder, .folder))
    (vacant : plan.descriptor.IsVacant store.disk)
    (sized : Filter.forTable plan.expected plan.settings.falsePositiveChance = .ok filter) :
    ∃ stage, build plan store = (.ok (plan.writer filter stage), stage.store) ∧
      (plan.ground store).run plan.setting plan.opening = (stage, none) := by
  have resides : plan.descriptor.ResidesIn store.disk folder := Disk.enter_of_locate located
  have found : store.disk.find plan.descriptor.directory = .ok .folder :=
    Disk.find_of_locate located
  have made : store.createFolders plan.descriptor.directory = (none, store) := by
    rw [Store.createFolders, Disk.createFolders_of_find found]
    rfl
  have prepared : prepare plan store = (.ok filter, store) := by
    rw [prepare, valid]
    dsimp only
    rw [made]
    dsimp only
    rw [vacant.isCommitted resides, if_neg Bool.false_ne_true, sized]
    rfl
  have ground : plan.ground store = ⟨store, [], []⟩ := by
    rw [WriterPlan.ground, made]
  have start : (plan.ground store).Shows plan.setting folder store.disk .empty := by
    rw [ground]
    exact ⟨⟨⟨resides, fun _ isOpen => isOpen, fun _ held => absurd rfl held,
        fun _ _ draft => by cases draft⟩,
      vacant.isApart folder resides, fun _ _ _ => .inr rfl, fun _ _ => rfl,
      fun _ _ _ draft => by cases draft⟩, vacant folder resides⟩
  have room : (Drafts.filling [] []).HaveRoom := by
    intro component draft held
    cases component <;> cases held <;> exact Nat.zero_le _
  obtain ⟨stage, ran, -⟩ := start.exists_run sound texts rfl plan.steps_opening room
  refine ⟨stage, ?_, ran⟩
  rw [ground] at ran
  have ran' : Stage.run ⟨plan.descriptor, plan.medium, plan.settings.sync, plan.observers⟩
      ⟨store, [], []⟩ (.ofSteps [.create .data, .create .index, .notify (.begin plan.expected)]) =
      (stage, none) := ran
  rw [build, prepared]
  dsimp only
  rw [ran']
  rfl

end Writer

/-- A commit of statistics that have fields has no fault. -/
theorem fault_commitScript (version : Version) (filter : Filter) {statistics : Statistics}
    {fields : List Bytes} (encoded : statistics.fields = .ok fields) :
    (commitScript version filter statistics).fault = none := by
  unfold commitScript
  rw [encoded]
  cases filter.isInformative <;> rfl

/-- The other files of a table have room, whatever there is for its data and its index. -/
theorem Drafts.haveRoom_committed (version : Version) (filter : Filter) {data index statistics : Bytes}
    (roomData : data.length ≤ Stage.maxFileBytes) (roomIndex : index.length ≤ Stage.maxFileBytes)
    (short : statistics.length ≤ 2 * maxKeyBytes + 68) :
    (committed data index statistics (Bytes.ofText (contentsText (tableComponents filter)))
      (filterBytes version filter)).HaveRoom := by
  have large : 12 + maxFilterBytes ≤ Stage.maxFileBytes ∧
      2 * maxKeyBytes + 68 ≤ Stage.maxFileBytes := by decide
  intro component draft held
  cases component with
  | data =>
      cases held
      exact roomData
  | index =>
      cases held
      exact roomIndex
  | statistics =>
      cases held
      exact Nat.le_trans short large.2
  | filter =>
      obtain ⟨bytes, stored, rfl⟩ := Option.map_eq_some_iff.1 held
      unfold filterBytes at stored
      split at stored
      · cases stored
        exact Nat.le_trans (filter.length_storedFields_le version.filterFormat) large.1
      · cases stored
  | contents =>
      cases held
      unfold tableComponents
      cases filter.isInformative <;> decide +kernel

namespace Partition

variable {partition : Partition} {blockSize : UInt64} {position : Position}

/-- The header of a partition has its key and fifteen bytes more. -/
theorem Encoding.length_header (encoding : partition.Encoding) :
    partition.key.bytes.length < Bytes.limit 2 ∧
      encoding.header.flatten.length = partition.key.bytes.length + 15 := by
  obtain ⟨name, named, same⟩ := Except.map_eq_ok_iff.1 encoding.header_eq
  obtain ⟨small, rfl⟩ := Key.fields_eq_ok_iff.1 named
  rw [← same]
  refine ⟨small, ?_⟩
  simp
  omega

/-- The entry of a partition of a single element is no longer than what is in the data of it. -/
theorem Written.length_entry_le (written : partition.Written blockSize position)
    (few : partition.elements.length ≤ 1) :
    written.entry.flatten.length ≤ written.encoding.bytes.length := by
  obtain ⟨-, header⟩ := written.encoding.length_header
  have single := written.encoding.elements_eq.length_eq ▸ few
  obtain ⟨promoted, encodes, -, -, fields⟩ := IndexEntry.fields_eq written.entry_eq
  rw [Partition.blocks_eq_nil single written.blocks_eq] at encodes
  cases encodes
  rw [fields, Encoding.bytes]
  simp only [List.flatten_cons, List.flatten_nil, List.length_append, List.length_nil,
    Bytes.length_littleEndian, Bytes.length_word64]
  omega

/-- A partition of a single element that can be encoded can be written wherever there is room. -/
theorem exists_written {bytes : Bytes} (encodes : partition.encode = .ok bytes)
    (few : partition.elements.length ≤ 1) (blockSize : UInt64)
    (room : position.data.toNat + bytes.length < UInt64.size) :
    ∃ written : partition.Written blockSize position, written.encoding.bytes = bytes := by
  obtain ⟨encoding, rfl⟩ := encode_eq_ok_iff.1 encodes
  obtain ⟨blocks, cut⟩ := encoding.exists_blocks blockSize room
  have single := encoding.elements_eq.length_eq ▸ few
  obtain rfl := Partition.blocks_eq_nil single cut
  obtain ⟨entry, entered, -⟩ := IndexEntry.exists_fields encoding.length_header.1 position.data
  exact ⟨⟨encoding, [], entry, cut, entered⟩, rfl⟩

end Partition

namespace Laid

variable {blockSize : UInt64} {placed : List (Placed blockSize)} {data index : Bytes}

/-- The data is what was written of the partitions, one behind the other. -/
theorem data_eq (laid : Laid blockSize placed data index) :
    data = placed.flatMap fun one => one.written.encoding.bytes := by
  induction laid with
  | nil => rfl
  | snoc _ next _ _ ih => rw [List.flatMap_append, List.flatMap_singleton, ← ih]

/-- The index of partitions of single elements is no longer than their data. -/
theorem length_index_le (laid : Laid blockSize placed data index)
    (few : ∀ one ∈ placed, one.partition.elements.length ≤ 1) : index.length ≤ data.length := by
  induction laid with
  | nil => exact Nat.le_refl _
  | snoc _ next _ _ ih =>
      have before := ih fun one member => few one (List.mem_append_left _ member)
      have last := next.written.length_entry_le
        (few next (List.mem_append_right _ (List.mem_singleton_self next)))
      rw [List.length_append, List.length_append]
      omega

end Laid

/-- A writer gathers each partition that it accepts, unless it is empty. -/
theorem Writer.progress_of_append {writer next : Writer} {partition : Partition} {store later : Store}
    {landed : Option Position} {progress : Progress} (held : writer.progress = some progress)
    (full : partition.isEmpty = false)
    (answered : writer.append partition store = (.ok landed, next, later)) :
    next.progress = some (Progress.add progress partition) := by
  have possible := writer.appends partition store
  rw [answered] at possible
  cases possible with
  | skipped progress' held' allowed empty => cases full.symm.trans empty
  | written progress' stage held' allowed full' ran =>
      cases held.symm.trans held'
      rfl

namespace Writer.Lays

variable {plan : WriterPlan} {folder : Path} {base : Disk}
  {placed : List (Placed plan.settings.blockSize)} {writer : Writer} {store : Store}

/-- A partition of a single element is placed if its key is above the last one and there is room. -/
theorem exists_append (lays : Lays plan folder base placed writer store)
    (sound : plan.medium = .sound) {progress : Progress} (held : writer.progress = some progress)
    (single : ∀ one ∈ placed, one.partition.elements.length ≤ 1) {partition : Partition}
    {bytes : Bytes} (encodes : partition.encode = .ok bytes) (full : partition.isEmpty = false)
    (few : partition.elements.length ≤ 1)
    (above : ∀ previous, progress.lastKey = some previous → compare previous partition.key = .lt)
    (room : (placed.flatMap fun one => one.written.encoding.bytes).length + bytes.length ≤
      Stage.maxFileBytes) :
    ∃ (one : Placed plan.settings.blockSize) (next : Writer) (later : Store),
      one.partition = partition ∧ one.written.encoding.bytes = bytes ∧
      writer.append partition store = (.ok (some one.position), next, later) ∧
      next.progress = some (Progress.add progress partition) ∧
      Lays plan folder base (placed ++ [one]) next later := by
  obtain ⟨data, index, laid, follows⟩ := lays.laid progress held
  have place := nextPosition_of_follows follows
  have shorter := laid.length_index_le single
  have words : Stage.maxFileBytes < UInt64.size := by decide
  rw [← laid.data_eq] at room
  have startData : (UInt64.ofNat data.length).toNat = data.length :=
    UInt64.toNat_ofNat_of_lt' (by omega)
  have startIndex : (UInt64.ofNat index.length).toNat = index.length :=
    UInt64.toNat_ofNat_of_lt' (by omega)
  obtain ⟨written, same⟩ : ∃ written : partition.Written plan.settings.blockSize
      ⟨UInt64.ofNat data.length, UInt64.ofNat index.length⟩, written.encoding.bytes = bytes :=
    Partition.exists_written encodes few _ (by dsimp only; omega)
  have entry := written.length_entry_le few
  have allowed : refusal? progress partition.key = none := by
    have small := written.encoding.length_header.1
    have limit : maxKeyBytes + 1 = Bytes.limit 2 := rfl
    unfold refusal?
    cases last : progress.lastKey with
    | none => exact if_neg (by omega)
    | some previous =>
        rw [Option.filter_some, above previous last]
        exact if_neg (by omega)
  rw [same] at entry
  obtain ⟨next, later, answered⟩ := lays.accepts (fun _ => by rw [sound]; rfl) held allowed full place
    written (by rw [same]; dsimp only; omega) (by dsimp only; omega)
  rcases lays.append answered with ⟨empty, -⟩ | ⟨-, one, rfl, -, landed, lays'⟩
  · cases full.symm.trans empty
  · have own := Partition.encode_eq_ok_iff.2 ⟨one.written.encoding, rfl⟩
    exact ⟨one, next, later, rfl, Except.ok.inj (own.symm.trans encodes), landed ▸ answered,
      progress_of_append held full answered, lays'⟩

/-- Partitions of single elements are all placed, in the order of their keys, if there is room. -/
theorem exists_appendAll (lays : Lays plan folder base placed writer store)
    (sound : plan.medium = .sound) {progress : Progress} (held : writer.progress = some progress)
    (short : progress.statistics.HasShortKeys)
    (single : ∀ one ∈ placed, one.partition.elements.length ≤ 1) {partitions : List Partition}
    {encoded : List Bytes}
    (each : List.Forall₂ (fun partition bytes => partition.encode = .ok bytes) partitions encoded)
    (full : ∀ partition ∈ partitions, partition.isEmpty = false)
    (few : ∀ partition ∈ partitions, partition.elements.length ≤ 1)
    (ascending : (partitions.map Partition.key).Pairwise fun left right => compare left right = .lt)
    (above : ∀ previous, progress.lastKey = some previous → ∀ partition ∈ partitions,
      compare previous partition.key = .lt)
    (room : (placed.flatMap fun one => one.written.encoding.bytes).length + encoded.flatten.length ≤
      Stage.maxFileBytes) :
    ∃ next later more last, writer.appendAll store partitions = (.ok (), next, later) ∧
      (more.map fun one => one.partition) = partitions ∧
      Lays plan folder base (placed ++ more) next later ∧ next.progress = some last ∧
      last.statistics.HasShortKeys := by
  induction each generalizing writer store placed progress with
  | nil => exact ⟨writer, store, [], progress, rfl, rfl, by rwa [List.append_nil], held, short⟩
  | @cons partition bytes rest encoded encodes each ih =>
      rw [List.flatten_cons, List.length_append] at room
      obtain ⟨below, ascending'⟩ := List.pairwise_cons.1 ascending
      have first := few partition List.mem_cons_self
      obtain ⟨one, middle, between, rfl, own, answered, gathered, lays'⟩ :=
        lays.exists_append sound held single encodes (full partition List.mem_cons_self) first
          (fun previous last => above previous last partition List.mem_cons_self) (by omega)
      have small : one.partition.key.bytes.length ≤ maxKeyBytes :=
        Nat.le_of_lt_succ one.written.encoding.length_header.1
      obtain ⟨next, later, more, last, all, same, lays'', held', short'⟩ := ih lays' gathered
        (short.add small)
        (fun other member => (List.mem_append.1 member).elim (single other) fun member =>
          List.mem_singleton.1 member ▸ first)
        (fun other member => full other (List.mem_cons_of_mem _ member))
        (fun other member => few other (List.mem_cons_of_mem _ member)) ascending'
        (fun previous last other member => by
          cases last
          exact below other.key (List.mem_map_of_mem member))
        (by
          rw [List.flatMap_append, List.flatMap_singleton, own, List.length_append]
          omega)
      refine ⟨next, later, one :: more, last, ?_, congrArg (one.partition :: ·) same, ?_, held', short'⟩
      · rw [Writer.appendAll, answered]
        exact all
      · rwa [List.append_assoc] at lays''

/-- A writer that placed a partition commits its table, where no name was taken, and opens it. -/
theorem exists_finishAndOpen (lays : Lays plan folder base placed writer store)
    (sound : plan.medium = .sound)
    (texts : ∀ component, Path.IsText (plan.descriptor.pathOf false component))
    (bare : ∀ isFinal component,
      base.node? (folder ++ [plan.descriptor.nameOf isFinal component]) = none)
    {progress : Progress} (held : writer.progress = some progress) (full : placed ≠ [])
    (short : progress.statistics.HasShortKeys) (entries : ∀ one ∈ placed, one.EntryFits) :
    ∃ reader later, writer.finishAndOpen store = (.ok reader, later) := by
  have keeps (component : Component) : (plan.medium.sink component).keeps = true := by
    rw [sound]
    rfl
  have gathers := lays.gathers progress held
  obtain ⟨data, index, laid, follows⟩ := lays.laid progress held
  have room (component : Component) (bytes : Bytes)
      (drafted : Drafts.filling data index component = some { bytes := bytes }) :
      bytes.length ≤ Stage.maxFileBytes := by
    obtain ⟨id, node⟩ := follows.placed component _ drafted
    exact (follows.shown component _ id drafted node).room (keeps component)
  have several : progress.statistics.partitions ≠ 0 := by
    intro none'
    have count := gathers.toNat_partitions laid (room .index index rfl)
    rw [none'] at count
    exact full (List.length_eq_zero_iff.1 count.symm)
  obtain ⟨fields, encoded, few⟩ := short.exists_fields
  have whole := fault_commitScript plan.descriptor.version progress.filter encoded
  obtain ⟨fields', encoded', steps⟩ := Drafts.steps_commit whole data index
  cases encoded.symm.trans encoded'
  have start : (writer.stage store).Shows plan.setting folder base (.filling data index) :=
    ⟨follows, bare⟩
  obtain ⟨stage, ran, shows'⟩ := start.exists_run sound texts whole steps
    (Drafts.haveRoom_committed _ _ (room .data data rfl) (room .index index rfl) few)
  obtain ⟨reader, -, opens⟩ := Reader.ofParts_of_follows keeps gathers laid entries shows'.toFollows
  have opened : Reader.ofParts plan.medium stage.store.disk plan.descriptor progress.filter
      progress.statistics = .ok reader := by
    rw [opens, sound]
    rfl
  have commits : (writer.stage store).run writer.setting (commitScript
      writer.setting.descriptor.version progress.filter progress.statistics) = (stage, none) := by
    rw [lays.setting]
    exact ran
  have reopens : Reader.ofParts writer.setting.medium stage.store.disk writer.setting.descriptor
      progress.filter progress.statistics = .ok reader := by
    rw [lays.setting]
    exact opened
  rw [Writer.finishAndOpen, Writer.commitThen, held]
  dsimp only
  rw [if_neg several, commits]
  dsimp only
  rw [reopens]
  exact ⟨reader, _, rfl⟩

end Writer.Lays

/-- Partitions of single elements are written, in the order of their keys, to a table that is opened. -/
theorem Writer.exists_table {plan : WriterPlan} {store : Store} {folder : Path} {filter : Filter}
    {partitions : List Partition} {encoded : List Bytes} (sound : plan.medium = .sound)
    (texts : ∀ component, Path.IsText (plan.descriptor.pathOf false component))
    (valid : plan.settings.validate = .ok ())
    (located : store.disk.locate plan.descriptor.directory = .ok (folder, .folder))
    (vacant : plan.descriptor.IsVacant store.disk)
    (sized : Filter.forTable plan.expected plan.settings.falsePositiveChance = .ok filter)
    (some' : partitions ≠ [])
    (each : List.Forall₂ (fun partition bytes => partition.encode = .ok bytes) partitions encoded)
    (full : ∀ partition ∈ partitions, partition.isEmpty = false)
    (few : ∀ partition ∈ partitions, partition.elements.length ≤ 1)
    (ascending : (partitions.map Partition.key).Pairwise fun left right => compare left right = .lt)
    (room : encoded.flatten.length ≤ Stage.maxFileBytes) :
    ∃ writer begun last middle reader later, build plan store = (.ok writer, begun) ∧
      writer.appendAll begun partitions = (.ok (), last, middle) ∧
      last.finishAndOpen middle = (.ok reader, later) := by
  have still : plan.site store = store.disk := WriterPlan.site_of_locate located
  have resides : plan.descriptor.ResidesIn store.disk folder := Disk.enter_of_locate located
  have bare := vacant folder resides
  obtain ⟨begun, built, ran⟩ := exists_build sound texts valid located vacant sized
  rw [← still] at resides vacant bare
  have lays := lays_of_opening resides vacant.isApart sized ran
  obtain ⟨last, middle, placed, progress, all, same, lays', held, short⟩ :=
    lays.exists_appendAll sound rfl ⟨Nat.zero_le _, Nat.zero_le _⟩ nofun each full few ascending nofun
      (by simpa using room)
  rw [List.nil_append] at lays'
  have placed' : placed ≠ [] := by
    rintro rfl
    exact some' same.symm
  have entries (one : Placed plan.settings.blockSize) (member : one ∈ placed) : one.EntryFits := by
    have inside : one.partition ∈ partitions := same ▸ List.mem_map_of_mem member
    exact Placed.entryFits_iff.2 (Partition.indexFits_of_single (few _ inside) _ _)
  obtain ⟨reader, later, finished⟩ :=
    lays'.exists_finishAndOpen sound texts bare held placed' short entries
  exact ⟨_, _, last, middle, reader, later, built, all, finished⟩

end SortedTable

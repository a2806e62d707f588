import SortedTable.Proofs.Writer.Protocol
import SortedTable.Proofs.Writer.Reopening

namespace SortedTable

namespace Writer

theorem alive_of_conclude {writer : Writer} {conclusion : Conclusion} {store : Store}
    {opened : Option Reader} (committed : (writer.conclude conclusion store).1 = some (.ok opened)) :
    ∃ progress, writer.progress = some progress := by
  cases held : writer.progress with
  | some progress => exact ⟨progress, rfl⟩
  | none =>
      rw [conclude_of_failed held] at committed
      dsimp only at committed
      split at committed <;> cases committed

/-- A writer that commits its table commits it with the partitions that it has placed. -/
theorem Lays.conclude {plan : WriterPlan} {folder : Path} {base : Disk}
    {placed : List (Placed plan.settings.blockSize)} {writer : Writer} {store : Store}
    (lays : Lays plan folder base placed writer store) {conclusion : Conclusion}
    {opened : Option Reader} (committed : (writer.conclude conclusion store).1 = some (.ok opened)) :
    ∃ (progress : Progress) (stage : Stage) (data index : Bytes) (fields : List Bytes),
      writer.progress = some progress ∧
      (writer.conclude conclusion store).2 = stage.store.deliver plan.observers .complete ∧
      Gathers placed progress ∧ Laid plan.settings.blockSize placed data index ∧
      progress.statistics.fields = .ok fields ∧
      stage.Follows plan.setting folder base (.committed data index fields.flatten
        (Bytes.ofText (contentsText (tableComponents progress.filter)))
        (Drafts.filterBytes plan.descriptor.version progress.filter)) ∧
      Reopens plan.setting progress stage.store.disk conclusion opened := by
  have possible := writer.concludes conclusion store
  generalize writer.conclude conclusion store = outcome at committed possible ⊢
  cases possible with
  | ended result ended answer =>
      dsimp only at committed
      rw [committed] at answer
      split at answer <;> cases answer
  | aborted progress given held => cases committed
  | broken progress error held => cases committed
  | committed progress stage opened' held ran reopens =>
      cases committed
      rw [lays.setting] at ran reopens ⊢
      obtain ⟨data, index, laid, follows⟩ := lays.laid progress held
      obtain ⟨performed, unbroken⟩ := Stage.run_eq_none_iff.1 ran
      obtain ⟨fields, encoded, steps⟩ := Drafts.steps_commit unbroken data index
      exact ⟨progress, stage, data, index, fields, held, rfl, lays.gathers progress held, laid, encoded,
        follows.performAll steps performed, reopens⟩

namespace Places

variable {blockSize : UInt64} {partitions : List Partition} {attempts : List Attempt}
  {placed : List (Placed blockSize)}

/-- The partitions that were placed are those that are not empty, in order. -/
theorem partitions_eq (places : Places partitions attempts placed) :
    (placed.map fun one => one.partition) =
      partitions.filter fun partition => !partition.isEmpty := by
  induction places with
  | nil => rfl
  | skipped empty rest ih => rw [ih, List.filter_cons_of_neg (by simp [empty])]
  | written one full rest ih =>
      rw [List.map_cons, ih, List.filter_cons_of_pos (by simp [full])]

/-- Every partition that was placed has an answer with its position. -/
theorem exists_attempt (places : Places partitions attempts placed) {one : Placed blockSize}
    (member : one ∈ placed) : one.partition ∈ partitions ∧ ∃ attempt ∈ attempts,
      attempt.partition = one.partition ∧ attempt.answer = .ok (some one.position) := by
  induction places with
  | nil => cases member
  | skipped empty rest ih =>
      obtain ⟨given, attempt, present, same⟩ := ih member
      exact ⟨List.mem_cons_of_mem _ given, attempt, List.mem_cons_of_mem _ present, same⟩
  | written first full rest ih =>
      rcases List.mem_cons.1 member with rfl | member
      · exact ⟨List.mem_cons_self, _, List.mem_cons_self, rfl, rfl⟩
      · obtain ⟨given, attempt, present, same⟩ := ih member
        exact ⟨List.mem_cons_of_mem _ given, attempt, List.mem_cons_of_mem _ present, same⟩

/-- Partitions that fit are placed as they were given. -/
theorem units (places : Places partitions attempts placed)
    (fits : ∀ partition ∈ partitions, partition.UnitsFit) :
    ∀ one ∈ placed, one.partition.UnitsFit :=
  fun _ member => fits _ (places.exists_attempt member).1

/-- Every partition that was given a position is placed there. -/
theorem exists_placed (places : Places partitions attempts placed) {attempt : Attempt}
    (present : attempt ∈ attempts) {position : Position}
    (answer : attempt.answer = .ok (some position)) :
    ∃ one ∈ placed, one.partition = attempt.partition ∧ one.position = position := by
  induction places with
  | nil => cases present
  | skipped empty rest ih =>
      rcases List.mem_cons.1 present with rfl | present
      · cases answer
      · exact ih present
  | written one full rest ih =>
      rcases List.mem_cons.1 present with rfl | present
      · cases answer
        exact ⟨one, List.mem_cons_self, rfl, rfl⟩
      · obtain ⟨other, member, same⟩ := ih present
        exact ⟨other, List.mem_cons_of_mem _ member, same⟩

/-- The entries of all partitions fit if the indexes do that the partitions got where they landed. -/
theorem entries_iff (places : Places partitions attempts placed) :
    (∀ one ∈ placed, one.EntryFits) ↔ ∀ attempt ∈ attempts, ∀ position,
      attempt.answer = .ok (some position) → attempt.partition.IndexFits blockSize position := by
  constructor
  · intro fits attempt present position answer
    obtain ⟨one, member, same, rfl⟩ := places.exists_placed present answer
    exact same ▸ Placed.entryFits_iff.1 (fits one member)
  · intro fits one member
    obtain ⟨-, attempt, present, same, answer⟩ := places.exists_attempt member
    exact Placed.entryFits_iff.2 (same ▸ fits attempt present _ answer)

end Places

end Writer

/-- The files of a table hold the partitions that were placed, in its folder as `holds` says. -/
def WriterPlan.Stores (plan : WriterPlan) (partitions : List Partition) (conclusion : Conclusion)
    (store : Store) (opened : Option Reader) (holds : Path → Drafts → Stage → Prop) : Prop :=
  ∃ (placed : List (Placed plan.settings.blockSize)) (folder : Path) (progress : Progress)
    (stage : Stage) (data index : Bytes) (fields : List Bytes),
    Writer.Places partitions (plan.run partitions conclusion store).attempts placed ∧
    (plan.run partitions conclusion store).store = stage.store.deliver plan.observers .complete ∧
    Writer.Gathers placed progress ∧ Laid plan.settings.blockSize placed data index ∧
    progress.statistics.fields = .ok fields ∧
    holds folder (.committed data index fields.flatten
      (Bytes.ofText (contentsText (tableComponents progress.filter)))
      (Drafts.filterBytes plan.descriptor.version progress.filter)) stage ∧
    Writer.Reopens plan.setting progress stage.store.disk conclusion opened

/-- A table is committed by a writer that began with nothing placed and nothing counted. -/
theorem WriterPlan.exists_writer {plan : WriterPlan} {partitions : List Partition}
    {conclusion : Conclusion} {store : Store} {opened : Option Reader}
    (apart : plan.descriptor.IsApart (plan.site store))
    (committed : (plan.run partitions conclusion store).result = some (.ok opened)) :
    ∃ (writer : Writer) (begun : Store) (folder : Path) (first : Progress),
      Writer.Lays plan folder (plan.site store) [] writer begun ∧ writer.progress = some first ∧
      Filter.forTable plan.expected plan.settings.falsePositiveChance = .ok first.filter ∧
      first.statistics = .empty plan.settings.falsePositiveChance.toBits ∧
      plan.run partitions conclusion store =
        let appended := writer.appendEach begun partitions
        let ended := appended.2.1.conclude conclusion appended.2.2
        ⟨.ok (), appended.1, ended.1, ended.2⟩ := by
  have possible := plan.runs store partitions conclusion
  generalize plan.run partitions conclusion store = run at committed possible ⊢
  cases possible with
  | refused error later origin => cases committed
  | broken stage error ran => cases committed
  | built filter begun folder made ran resides same =>
      exact ⟨_, _, folder, _, Writer.lays_of_opening resides apart made ran, rfl, made, rfl, rfl⟩

/-- A committed table holds the partitions that were placed, whatever had its names before. -/
theorem WriterPlan.follows_of_committed {plan : WriterPlan} {partitions : List Partition}
    {conclusion : Conclusion} {store : Store} {opened : Option Reader}
    (apart : plan.descriptor.IsApart (plan.site store))
    (committed : (plan.run partitions conclusion store).result = some (.ok opened)) :
    plan.Stores partitions conclusion store opened fun folder =>
      Stage.Follows plan.setting folder (plan.site store) := by
  obtain ⟨writer, begun, folder, first, start, -, -, -, same⟩ := exists_writer apart committed
  unfold Stores
  rw [same] at committed ⊢
  dsimp only at committed ⊢
  obtain ⟨_, alive⟩ := Writer.alive_of_conclude committed
  obtain ⟨placed, places, lays⟩ := start.appendEach (Writer.answers_of_alive alive)
  obtain ⟨progress, stage, data, index, fields, -, ended, whole⟩ := lays.conclude committed
  exact ⟨placed, folder, progress, stage, data, index, fields, places, ended, whole⟩

theorem WriterPlan.placed_of_committed {plan : WriterPlan} {partitions : List Partition}
    {conclusion : Conclusion} {store : Store} {opened : Option Reader}
    (vacant : plan.descriptor.IsVacant (plan.site store))
    (committed : (plan.run partitions conclusion store).result = some (.ok opened)) :
    plan.Stores partitions conclusion store opened fun folder =>
      Stage.Shows plan.setting folder (plan.site store) := by
  obtain ⟨placed, folder, progress, stage, data, index, fields, places, ended, gathers, laid,
    encoded, follows, reopens⟩ := follows_of_committed vacant.isApart committed
  exact ⟨placed, folder, progress, stage, data, index, fields, places, ended, gathers, laid, encoded,
    ⟨follows, vacant folder follows.resides⟩, reopens⟩

/-- An open table returns a partition by its key and by its positions, an empty static row as none. -/
structure Reader.Returns (reader : Reader) (disk : Disk) (partition : Partition)
    (position : Position) : Prop where
  partition? : reader.partition? disk partition.key = .ok (some partition.normalized)
  entry? : ∃ entry, reader.entry? disk partition.key = .ok (some entry) ∧
    entry.dataPosition = position.data
  partitionAt : reader.partitionAt disk position.data = .ok partition.normalized
  keyAt : reader.keyAt disk position.index = .ok partition.key

theorem Reader.Lists.returns {blockSize : UInt64} {reader : Reader} {disk : Disk}
    {placed : List (Placed blockSize)} (lists : reader.Lists disk placed) {one : Placed blockSize}
    (member : one ∈ placed) (fits : one.partition.UnitsFit) :
    reader.Returns disk one.partition one.position where
  partition? := by
    rw [lists.partition?_eq_partitionAt member, lists.partitionAt member fits]
    rfl
  entry? := ⟨one.entry, lists.entry? member, rfl⟩
  partitionAt := lists.partitionAt member fits
  keyAt := lists.keyAt member

/-- What an open table returns for a partition goes by the answer of its writer. -/
theorem Reader.Serves.forall₂_returns {blockSize : UInt64} {reader : Reader} {disk : Disk}
    {placed all : List (Placed blockSize)} (serves : reader.Serves disk all)
    {partitions : List Partition} {attempts : List Attempt}
    (places : Writer.Places partitions attempts placed) (among : ∀ one ∈ placed, one ∈ all) :
    List.Forall₂ (fun partition attempt => attempt.partition = partition ∧
      if partition.isEmpty then attempt.answer = .ok none
      else ∃ position, attempt.answer = .ok (some position) ∧
        reader.Returns disk partition position) partitions attempts := by
  induction places with
  | nil => exact .nil
  | skipped empty rest ih => exact .cons ⟨rfl, by rw [if_pos empty]⟩ (ih among)
  | written one full rest ih =>
      refine .cons ⟨rfl, ?_⟩ (ih fun other member => among other (List.mem_cons_of_mem _ member))
      rw [if_neg (by simp [full])]
      have member := among one List.mem_cons_self
      exact ⟨one.position, rfl, serves.returns member (serves.units one member)⟩

/-- A committed table is opened again, lists its keys in order and returns exactly its partitions. -/
theorem WriterPlan.run_round_trip (plan : WriterPlan) (partitions : List Partition)
    (conclusion : Conclusion) (store : Store)
    (keeps : ∀ component, (plan.medium.sink component).keeps = true)
    (vacant : plan.descriptor.IsVacant (plan.site store))
    (committed : (plan.run partitions conclusion store).IsCommitted)
    (units : ∀ partition ∈ partitions, partition.UnitsFit)
    (promoted : ∀ attempt ∈ (plan.run partitions conclusion store).attempts, ∀ position,
      attempt.answer = .ok (some position) →
      attempt.partition.IndexFits plan.settings.blockSize position) :
    let run := plan.run partitions conclusion store
    ∃ reader, Reader.load run.store.disk plan.descriptor = .ok reader ∧
      reader.keys = (partitions.filter fun partition => !partition.isEmpty).map Partition.key ∧
      List.Forall₂ (fun partition attempt => attempt.partition = partition ∧
        if partition.isEmpty then attempt.answer = .ok none
        else ∃ position, attempt.answer = .ok (some position) ∧
          reader.Returns run.store.disk partition position) partitions run.attempts ∧
      ∀ bytes filter, bytes ∉ reader.keys.map Key.bytes →
        { reader with filter := filter }.partition? run.store.disk (.ofBytes bytes) = .ok none ∧
        Reader.entry? { reader with filter := filter } run.store.disk (.ofBytes bytes) = .ok none := by
  obtain ⟨opened, committed⟩ := committed
  obtain ⟨placed, folder, progress, stage, data, index, fields, places, ended, gathers, laid,
    encoded, shows', -⟩ := placed_of_committed vacant committed
  obtain ⟨reader, loaded, serves⟩ := Reader.load_of_shows keeps gathers laid
    (places.entries_iff.2 promoted) (places.units units) encoded shows'
  dsimp only
  rw [ended, Store.disk_deliver]
  refine ⟨reader, loaded, ?_, serves.forall₂_returns places fun _ member => member, ?_⟩
  · rw [serves.keys, ← places.partitions_eq, List.map_map]
    rfl
  · intro bytes filter missing
    have absent : Key.ofBytes bytes ∉ ({ reader with filter := filter } : Reader).keys :=
      fun member => missing (List.mem_map.2 ⟨_, member, Key.bytes_ofBytes bytes⟩)
    exact ⟨Reader.partition?_of_notMem absent _, Reader.entry?_of_notMem absent _⟩

/-- Of three partitions the two that are not empty come back. -/
theorem WriterPlan.run_round_trip_triple :
    ∃ reader, Reader.load (unfiltered.run Partition.triple .finish ⟨.empty, []⟩).store.disk
        unfiltered.descriptor = .ok reader ∧
      reader.keys = [.ofBytes [4], .ofBytes [0]] := by
  have vacant : unfiltered.descriptor.IsVacant (unfiltered.site ⟨.empty, []⟩) :=
    Descriptor.isVacant_of_names (by decide +kernel)
  have single : ∀ attempt ∈ (unfiltered.run Partition.triple .finish ⟨.empty, []⟩).attempts,
      attempt.partition.elements.length ≤ 1 := by decide +kernel
  obtain ⟨reader, loaded, keys, -⟩ := run_round_trip unfiltered Partition.triple .finish
    ⟨.empty, []⟩ (fun _ => rfl) vacant (by decide +kernel) (by decide +kernel)
    fun attempt member position _ => Partition.indexFits_of_single (single attempt member) _ position
  exact ⟨reader, loaded, keys.trans (by decide +kernel)⟩

/-- The open table that a run hands over is the one that opening its descriptor gives. -/
theorem WriterPlan.load_of_run (plan : WriterPlan) (partitions : List Partition)
    (conclusion : Conclusion) (store : Store) (handed : Reader)
    (keeps : ∀ component, (plan.medium.sink component).keeps = true)
    (vacant : plan.descriptor.IsVacant (plan.site store))
    (opened : (plan.run partitions conclusion store).result = some (.ok (some handed))) :
    Reader.load (plan.run partitions conclusion store).store.disk plan.descriptor = .ok handed := by
  obtain ⟨placed, folder, progress, stage, data, index, fields, -, ended, gathers, -, encoded,
    shows', reopens⟩ := placed_of_committed vacant opened
  rw [ended, Store.disk_deliver]
  cases conclusion with
  | finish => cases reopens
  | abort => cases reopens
  | finishAndOpen =>
      obtain ⟨reader, same, handedOver⟩ := reopens
      cases same
      exact Reader.load_of_ofParts keeps gathers.readable encoded shows' handedOver

/-- The table with two of three partitions is handed over as it is opened again. -/
theorem WriterPlan.load_of_run_triple :
    ∃ handed, (unfiltered.run Partition.triple .finishAndOpen ⟨.empty, []⟩).result =
        some (.ok (some handed)) ∧
      Reader.load (unfiltered.run Partition.triple .finishAndOpen ⟨.empty, []⟩).store.disk
        unfiltered.descriptor = .ok handed := by
  have vacant : unfiltered.descriptor.IsVacant (unfiltered.site ⟨.empty, []⟩) :=
    Descriptor.isVacant_of_names (by decide +kernel)
  have returned : ((unfiltered.run Partition.triple .finishAndOpen ⟨.empty, []⟩).result.bind
      fun answer => answer.toOption.join).isSome = true := by decide +kernel
  obtain ⟨handed, found⟩ := Option.isSome_iff_exists.1 returned
  obtain ⟨answer, opened, held⟩ := Option.bind_eq_some_iff.1 found
  cases Except.toOption_eq_some_iff.1 (Option.join_eq_some_iff.1 held)
  exact ⟨handed, opened, load_of_run unfiltered Partition.triple .finishAndOpen ⟨.empty, []⟩ handed
    (fun _ => rfl) vacant opened⟩

end SortedTable

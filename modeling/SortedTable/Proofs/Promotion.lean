import SortedTable.Proofs.Layout.Blocks
import SortedTable.Proofs.Opened

namespace SortedTable

/-- What an entry says of a partition with this encoding, which stands in the data. -/
structure IndexEntry.Describes (entry : IndexEntry) (blockSize : UInt64) (data : Bytes)
    {partition : Partition} (encoding : partition.Encoding) : Prop where
  stands : encoding.bytes <+: data.drop entry.dataPosition.toNat
  several : entry.blocks ≠ [] → 2 ≤ entry.blocks.length
  runs : entry.blocks ≠ [] → ∃ runs : List (List Element), runs.flatten = partition.elements ∧
    List.Forall₂ (fun block run => block.Holds data entry.dataPosition run) entry.blocks runs
  begins : ∀ block, entry.blocks.head? = some block → block.offset.toNat = encoding.front.length
  follow : entry.blocks.IsChain fun one next =>
    one.offset.toNat + one.width.toNat = next.offset.toNat
  ends : ∀ block, entry.blocks.getLast? = some block →
    block.offset.toNat + block.width.toNat + endMark.length = encoding.bytes.length
  unindexed : entry.blocks = [] → ∀ count < encoding.elements.length,
    (EncodedElement.bytes (encoding.elements.take count)).length < blockSize.toNat

/-- The entry of a partition describes it where it was placed. -/
theorem Placed.describes {blockSize : UInt64} {placed : List (Placed blockSize)} {data index : Bytes}
    (laid : Laid blockSize placed data index) (room : data.length < UInt64.size)
    (positive : 0 < blockSize.toNat) {one : Placed blockSize} (member : one ∈ placed) :
    one.entry.Describes blockSize data one.written.encoding := by
  obtain ⟨inside, stands⟩ := laid.drop_data room member
  by_cases indexed : one.written.blocks = []
  · have none {property : Prop} (some : one.entry.blocks ≠ []) : property := absurd indexed some
    have nothing : one.entry.blocks = [] := indexed
    exact ⟨stands, none, none, by simp [nothing], by simp [nothing], by simp [nothing],
      one.written.short_of_blocks_eq_nil positive⟩
  · obtain ⟨several, groups, same, points⟩ := one.written.exists_pointsAt indexed
    obtain ⟨faithful, elements⟩ := one.written.encoding.faithful
    have bytes := one.written.encoding.bytes_eq
    obtain ⟨rest, whole⟩ := stands
    refine ⟨⟨rest, whole⟩, fun _ => several, fun _ => ⟨groups.map EncodedElement.elements, ?_, ?_⟩,
      points.begins, points.isChain, fun block last => ?_, fun nothing => absurd nothing indexed⟩
    · rw [← elements, ← same]
      exact List.map_flatten.symm
    · rw [← same] at faithful
      have there : data.drop (one.position.data.toNat + one.written.encoding.front.length) =
          EncodedElement.bytes groups.flatten ++ (endMark ++ rest) := by
        rw [← List.drop_drop]
        rw [← whole, bytes, same]
        simp
      exact points.holds faithful there (by simp [endMark])
    · rw [points.ends block last, bytes, same]
      simp
      omega

theorem Settings.blockSize_ne_zero {settings : Settings} (valid : settings.validate = .ok ()) :
    settings.blockSize ≠ 0 := by
  intro zero
  unfold validate at valid
  rw [if_pos zero] at valid
  split at valid <;> cases valid

theorem Writer.validate_of_build {plan : WriterPlan} {store later : Store} {writer : Writer}
    (built : build plan store = (.ok writer, later)) : plan.settings.validate = .ok () := by
  cases held : plan.settings.validate with
  | ok => rfl
  | error cause =>
      delta build prepare at built
      rw [held] at built
      cases built

/-- A table is only written with a size of blocks. -/
theorem WriterPlan.blockSize_pos {plan : WriterPlan} {partitions : List Partition}
    {conclusion : Conclusion} {store : Store}
    (committed : (plan.run partitions conclusion store).IsCommitted) :
    0 < plan.settings.blockSize.toNat := by
  obtain ⟨opened, committed⟩ := committed
  have possible := plan.runs store partitions conclusion
  generalize plan.run partitions conclusion store = run at committed possible
  cases possible with
  | refused error later origin => cases committed
  | broken stage error ran => cases committed
  | built filter begun folder made ran resides same =>
      have nonzero := Settings.blockSize_ne_zero (Writer.validate_of_build same)
      rw [Nat.pos_iff_ne_zero]
      exact fun zero => nonzero (UInt64.toNat_inj.1 zero)

/-- Every partition that was given a position has an entry there that describes it. -/
theorem WriterPlan.run_describes (plan : WriterPlan) (partitions : List Partition)
    (conclusion : Conclusion) (store : Store)
    (keeps : ∀ component, (plan.medium.sink component).keeps = true)
    (apart : plan.descriptor.IsApart (plan.site store))
    (committed : (plan.run partitions conclusion store).IsCommitted) :
    let run := plan.run partitions conclusion store
    ∃ data index : Nat,
      run.store.disk.find (plan.descriptor.finalPath .data) = .ok (.file data) ∧
      run.store.disk.find (plan.descriptor.finalPath .index) = .ok (.file index) ∧
      ∀ attempt ∈ run.attempts, ∀ position, attempt.answer = .ok (some position) →
        ∃ (entry : IndexEntry) (fields : List Bytes) (encoding : attempt.partition.Encoding),
          IndexEntry.fields attempt.partition.key entry = .ok fields ∧
          fields.flatten <+: (run.store.disk.content index).drop position.index.toNat ∧
          entry.dataPosition = position.data ∧
          entry.Describes plan.settings.blockSize (run.store.disk.content data) encoding ∧
          ∀ reader : Reader, plan.Opens partitions conclusion store reader →
            reader.entryAt run.store.disk position.index =
              .ok (some (attempt.partition.key, entry)) ∧
            (reader.mayContain attempt.partition.key = true →
              reader.entry? run.store.disk attempt.partition.key = .ok (some entry)) := by
  dsimp only
  obtain ⟨placed, progress, data, index, files⟩ := files_of_committed keeps apart committed
  have words : Stage.maxFileBytes < UInt64.size := by decide
  have room := files.dataRoom
  refine ⟨data, index, files.dataFile, files.indexFile, fun attempt present position answer => ?_⟩
  obtain ⟨⟨partition, _, written⟩, member, rfl, rfl⟩ := files.places.exists_placed present answer
  have described := Placed.describes files.laid (by omega) (blockSize_pos committed) member
  refine ⟨_, _, _, written.entry_eq, ?_, rfl, described, fun reader opens => ?_⟩
  · exact files.laid.drop_index (by have := files.indexRoom; omega) member
  · obtain ⟨lists, -⟩ := files.opened reader opens
    refine ⟨lists.entryAt member, fun admitted => ?_⟩
    rw [Reader.entry?_withFilter admitted (lists.admits _ member)]
    exact lists.entry? member

/-- A partition with three elements below a static row. -/
def Partition.layered : Partition where
  key := .ofBytes [4]
  deletion := .live
  staticRow := some (.ofCells [] .live [⟨"total", 2, some [9]⟩])
  elements := [.row (.ofCells [[1]] .live [⟨"name", 1, some [7, 8]⟩]),
    .marker ⟨.opening, [[2]], ⟨7, 1⟩⟩, .marker ⟨.closing, [[3]], ⟨7, 1⟩⟩]

namespace WriterPlan

/-- A plan with the smallest blocks. -/
def fine : WriterPlan :=
  { unfiltered with settings := { unfiltered.settings with blockSize := 1 } }

/-- Each of three elements has a block of its own. -/
theorem run_describes_layered :
    let run := fine.run [.layered] .finish ⟨.empty, []⟩
    ∃ (data : Nat) (entry : IndexEntry) (encoding : Partition.layered.Encoding),
      run.store.disk.find (fine.descriptor.finalPath .data) = .ok (.file data) ∧
      entry.blocks.length = 3 ∧
      entry.Describes 1 (run.store.disk.content data) encoding := by
  have vacant : fine.descriptor.IsVacant (fine.site ⟨.empty, []⟩) :=
    Descriptor.isVacant_of_names (by decide +kernel)
  obtain ⟨committed, answered, indexed⟩ :
      let run := fine.run [.layered] .finish ⟨.empty, []⟩
      run.IsCommitted ∧
        (∃ attempt ∈ run.attempts, attempt.partition = .layered ∧
          attempt.answer.toOption = some (some ⟨0, 0⟩)) ∧
        ((Reader.load run.store.disk fine.descriptor).toOption.map fun reader =>
          (reader.entryAt run.store.disk 0).toOption.join.map (·.2.blocks.length)) =
            some (some 3) := by
    decide +kernel
  obtain ⟨data, index, file, -, each⟩ := run_describes fine [.layered] .finish ⟨.empty, []⟩
    (fun _ => rfl) vacant.isApart committed
  obtain ⟨⟨_, place, answer⟩, present, rfl, found⟩ := answered
  obtain ⟨entry, fields, encoding, -, -, -, describes, returned⟩ :=
    each _ present _ (Except.toOption_eq_some_iff.1 found)
  refine ⟨data, entry, encoding, file, ?_, describes⟩
  obtain ⟨reader, loaded, counted⟩ := Option.map_eq_some_iff.1 indexed
  have held := (returned reader (.inr (Except.toOption_eq_some_iff.1 loaded))).1
  dsimp only at held
  rw [held] at counted
  exact Option.some.inj counted

end WriterPlan

end SortedTable

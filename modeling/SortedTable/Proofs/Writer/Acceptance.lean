import SortedTable.Proofs.Writer.Placement

namespace SortedTable

namespace Partition

variable {partition : Partition} {blockSize : UInt64} {position : Position}

/-- A partition has one encoding at most. -/
theorem Encoding.eq (left right : partition.Encoding) : left = right := by
  obtain ⟨header, row, elements, headed, rowed, each⟩ := left
  obtain ⟨header', row', elements', headed', rowed', each'⟩ := right
  cases headed.symm.trans headed'
  cases rowed.symm.trans rowed'
  cases (EncodedElement.ofElements_eq_none_iff.2 each).symm.trans
    (EncodedElement.ofElements_eq_none_iff.2 each')
  rfl

/-- At a position one thing is written of a partition at most. -/
theorem Written.eq (left right : partition.Written blockSize position) : left = right := by
  obtain ⟨encoding, blocks, entry, cut, entered⟩ := left
  obtain ⟨encoding', blocks', entry', cut', entered'⟩ := right
  cases encoding.eq encoding'
  cases cut.symm.trans cut'
  cases entered.symm.trans entered'
  rfl

/-- The script of a partition of which everything can be encoded has no fault. -/
theorem Written.fault_script (written : partition.Written blockSize position) :
    (partition.script blockSize position).fault = none := by
  have header : (Script.ofFields .data _).fault = none :=
    Script.ofFields_eq_none_iff.2 ⟨_, written.encoding.header_eq⟩
  have entry : (Script.ofFields .index _).fault = none :=
    Script.ofFields_eq_none_iff.2 ⟨_, written.entry_eq⟩
  have row : (partition.writtenStaticRow.elim (.ofSteps []) Row.staticScript).fault = none := by
    have rowed := written.encoding.staticRow_eq
    cases held : partition.writtenStaticRow with
    | none => rfl
    | some row =>
        rw [held] at rowed
        exact Script.fault_append_eq_none_iff.2 ⟨Script.ofFields_eq_none_iff.2 ⟨_, rowed⟩, rfl⟩
  rw [script, EncodedElement.ofElements_eq_none_iff.2 written.encoding.elements_eq]
  dsimp only
  rw [written.blocks_eq]
  refine Script.fault_append_eq_none_iff.2 ⟨?_, Script.fault_append_eq_none_iff.2 ⟨rfl, ?_⟩⟩
  · exact Script.fault_append_eq_none_iff.2 ⟨rfl, Script.fault_append_eq_none_iff.2 ⟨header, row⟩⟩
  · exact Script.fault_append_eq_none_iff.2 ⟨rfl, entry⟩

/-- The script of a partition of which everything can be encoded writes all of it. -/
theorem Written.fills (written : partition.Written blockSize position) :
    (partition.script blockSize position).Fills written.encoding.bytes written.entry.flatten := by
  obtain ⟨written', fills⟩ := partition.fills_script written.fault_script
  rwa [written.eq written']

end Partition

namespace Stage.Follows

variable {setting : Setting} {folder : Path} {base : Disk} {stage : Stage} {data index : Bytes}

/-- A sink that takes all bytes takes them as long as there is room in the file. -/
theorem fault_write {drafts : Drafts} (follows : stage.Follows setting folder base drafts)
    {component : Component} {before bytes : Bytes} {isFinal : Bool}
    (held : drafts component = some ⟨before, true, isFinal⟩)
    (sound : setting.medium.sink component = {})
    (room : (before ++ bytes).length ≤ maxFileBytes) :
    (stage.write setting component bytes).2 = none := by
  obtain ⟨id, node⟩ := follows.placed component _ held
  obtain ⟨output, found, -, taken, -⟩ := (follows.shown component _ id held node).opened rfl
  have whole : (({} : SinkPlan).writeAll output.tracker bytes).fault = none := by
    cases bytes with
    | nil => rw [SinkPlan.writeAll]
    | cons first rest => rw [SinkPlan.writeAll, if_neg (WriteAnswer.all_ne_fail _)]
  have count : (({} : SinkPlan).writeAll output.tracker bytes).tracker.taken =
      (before ++ bytes).length := by
    rw [SinkPlan.taken_of_writeAll whole, taken, List.length_append]
  have words : maxFileBytes < UInt64.size := by decide
  unfold Stage.write
  rw [found]
  dsimp only
  rw [sound, whole, count, excess?, if_neg (by simpa using room), if_neg (by omega)]
  rfl

/-- A step that fills the data and the index is taken as long as there is room in their files. -/
theorem perform_filling (follows : stage.Follows setting folder base (.filling data index))
    (sound : ∀ component, setting.medium.sink component = {}) {step : Step}
    (filling : step.IsFilling) (roomData : (data ++ step.written .data).length ≤ maxFileBytes)
    (roomIndex : (index ++ step.written .index).length ≤ maxFileBytes) :
    ∃ later, stage.perform setting step = (later, none) ∧ later.Follows setting folder base
      (.filling (data ++ step.written .data) (index ++ step.written .index)) := by
  have done : (stage.perform setting step).2 = none := by
    cases step with
    | notify notice => rfl
    | create component => cases filling
    | close component => cases filling
    | rename component => cases filling
    | write component bytes =>
        rcases filling with rfl | rfl
        · exact follows.fault_write rfl (sound .data) roomData
        · exact follows.fault_write rfl (sound .index) roomIndex
  have only : ∀ other ∈ [step], other.IsFilling := fun other member =>
    List.mem_singleton.1 member ▸ filling
  have allowed := Drafts.steps_filling only data index
  rw [List.flatMap_singleton, List.flatMap_singleton] at allowed
  refine ⟨(stage.perform setting step).1, Prod.ext rfl done, follows.performAll allowed ?_⟩
  rw [Stage.performAll, ← Prod.eta (stage.perform setting step), done]
  rfl

/-- Steps that fill the data and the index are all taken if there is room for all of them. -/
theorem performAll_filling (follows : stage.Follows setting folder base (.filling data index))
    (sound : ∀ component, setting.medium.sink component = {}) {steps : List Step}
    (only : ∀ step ∈ steps, step.IsFilling)
    (roomData : (data ++ steps.flatMap (Step.written .data)).length ≤ maxFileBytes)
    (roomIndex : (index ++ steps.flatMap (Step.written .index)).length ≤ maxFileBytes) :
    ∃ later, stage.performAll setting steps = (later, none) := by
  induction steps generalizing stage data index with
  | nil => exact ⟨stage, rfl⟩
  | cons step rest ih =>
      rw [List.flatMap_cons, ← List.append_assoc] at roomData roomIndex
      have first := only step List.mem_cons_self
      obtain ⟨next, done, follows'⟩ := follows.perform_filling sound first
        (Nat.le_trans (List.prefix_append _ _).length_le roomData)
        (Nat.le_trans (List.prefix_append _ _).length_le roomIndex)
      rw [Stage.performAll, done]
      exact ih follows' (fun other member => only other (List.mem_cons_of_mem _ member)) roomData
        roomIndex

end Stage.Follows

/-- On a sound medium a writer accepts what can be encoded and has room in the files. -/
theorem Writer.Lays.accepts {plan : WriterPlan} {folder : Path} {base : Disk}
    {placed : List (Placed plan.settings.blockSize)} {writer : Writer} {store : Store}
    (lays : Lays plan folder base placed writer store)
    (sound : ∀ component, plan.medium.sink component = {}) {partition : Partition}
    {progress : Progress} (held : writer.progress = some progress)
    (allowed : refusal? progress partition.key = none) (full : partition.isEmpty = false)
    {position : Position} (place : writer.nextPosition = position)
    (written : partition.Written plan.settings.blockSize position)
    (roomData : position.data.toNat + written.encoding.bytes.length ≤ Stage.maxFileBytes)
    (roomIndex : position.index.toNat + written.entry.flatten.length ≤ Stage.maxFileBytes) :
    ∃ next later, writer.append partition store = (.ok (some position), next, later) := by
  obtain ⟨data, index, -, follows⟩ := lays.laid progress held
  have small (component : Component) (bytes : Bytes)
      (drafted : Drafts.filling data index component = some { bytes := bytes }) :
      bytes.length < UInt64.size := by
    obtain ⟨id, node⟩ := follows.placed component _ drafted
    exact (follows.shown component _ id drafted node).small
  have start := place.symm.trans (nextPosition_of_follows follows)
  have startData : position.data.toNat = data.length := by
    rw [start, UInt64.toNat_ofNat_of_lt' (small .data data rfl)]
  have startIndex : position.index.toNat = index.length := by
    rw [start, UInt64.toNat_ofNat_of_lt' (small .index index rfl)]
  have fills := written.fills
  obtain ⟨stage, performed⟩ := follows.performAll_filling sound fills.only
    (by rwa [fills.data, List.length_append, ← startData])
    (by rwa [fills.index, List.length_append, ← startIndex])
  have ran := Stage.run_eq_none_iff.2 ⟨performed, written.fault_script⟩
  rw [Writer.append, held]
  dsimp only
  rw [allowed]
  dsimp only
  rw [if_neg (by simp [full]), lays.setting, lays.blockSize, place, ran]
  exact ⟨_, _, rfl⟩

/-- So does a writer that was just built, at the start of its files. -/
theorem Writer.accepts_first {plan : WriterPlan} {store begun : Store} {writer : Writer}
    (apart : plan.descriptor.IsApart (plan.site store))
    (sound : ∀ component, plan.medium.sink component = {})
    (built : Writer.build plan store = (.ok writer, begun)) {partition : Partition}
    (short : partition.key.bytes.length ≤ maxKeyBytes) (full : partition.isEmpty = false)
    (written : partition.Written plan.settings.blockSize ⟨0, 0⟩)
    (roomData : written.encoding.bytes.length ≤ Stage.maxFileBytes)
    (roomIndex : written.entry.flatten.length ≤ Stage.maxFileBytes) :
    ∃ next later, writer.append partition begun = (.ok (some ⟨0, 0⟩), next, later) := by
  have possible := Writer.builds plan store
  rw [built] at possible
  cases possible with
  | built filter stage made ran =>
      obtain ⟨error, failed, -⟩ | ⟨folder, resides⟩ := WriterPlan.resides_of_opening ran
      · cases failed
      have lays := lays_of_opening resides apart made ran
      have allowed : refusal? ⟨filter, .empty plan.settings.falsePositiveChance.toBits, none⟩
          partition.key = none := by
        rw [refusal?]
        exact if_neg (by omega)
      have start : ((plan.writer filter stage).stage stage.store).Follows plan.setting folder
          (plan.site store) (.filling [] []) := WriterPlan.follows_of_opening resides apart ran
      exact lays.accepts sound rfl allowed full (nextPosition_of_follows start) written
        (by simpa using roomData) (by simpa using roomIndex)

end SortedTable

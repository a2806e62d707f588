import SortedTable.Proofs.Layout.Partition
import SortedTable.Proofs.Writer.Drafts
import SortedTable.Proofs.Writer.Notices

namespace SortedTable

/-- What a step puts into a component. -/
def Step.written (component : Component) : Step → Bytes
  | .write target bytes => if target = component then bytes else []
  | _ => []

/-- A step that at most writes to the data or the index. -/
def Step.IsFilling : Step → Prop
  | .notify _ => True
  | .write component _ => component = .data ∨ component = .index
  | _ => False

namespace Drafts

/-- The drafts while partitions are written: the data and the index are open. -/
def filling (data index : Bytes) : Drafts
  | .data => some { bytes := data }
  | .index => some { bytes := index }
  | _ => none

theorem update_filling_data (data index bytes : Bytes) :
    Function.update (filling data index) .data (some { bytes := bytes }) = filling bytes index := by
  funext component
  cases component <;> rfl

theorem update_filling_index (data index bytes : Bytes) :
    Function.update (filling data index) .index (some { bytes := bytes }) = filling data bytes := by
  funext component
  cases component <;> rfl

/-- Steps that only fill the data and the index add to their drafts. -/
theorem steps_filling {steps : List Step} (only : ∀ step ∈ steps, step.IsFilling)
    (data index : Bytes) :
    (filling data index).steps steps =
      some (filling (data ++ steps.flatMap (Step.written .data))
        (index ++ steps.flatMap (Step.written .index))) := by
  induction steps generalizing data index with
  | nil => simp [steps]
  | cons next rest ih =>
      have first := only next List.mem_cons_self
      have further := ih fun other member => only other (List.mem_cons_of_mem _ member)
      rw [Drafts.steps, List.flatMap_cons, List.flatMap_cons, ← List.append_assoc,
        ← List.append_assoc]
      cases next with
      | notify notice => simpa [Drafts.step, Step.written] using further data index
      | create component => cases first
      | close component => cases first
      | rename component => cases first
      | write component bytes =>
          rcases first with rfl | rfl
          · change (some (Function.update (filling data index) .data
              (some { bytes := data ++ bytes }))).bind _ = _
            rw [update_filling_data]
            simpa [Step.written] using further (data ++ bytes) index
          · change (some (Function.update (filling data index) .index
              (some { bytes := index ++ bytes }))).bind _ = _
            rw [update_filling_index]
            simpa [Step.written] using further data (index ++ bytes)

end Drafts

namespace Script

/-- The script only adds these bytes to the data and the index. -/
structure Fills (script : Script) (data index : Bytes) : Prop where
  only : ∀ step ∈ script.steps, step.IsFilling
  data : script.steps.flatMap (Step.written .data) = data
  index : script.steps.flatMap (Step.written .index) = index

theorem Fills.append {first second : Script} {data index data' index' : Bytes}
    (fills : first.Fills data index) (fills' : second.Fills data' index')
    (ended : first.fault = none) : (first ++ second).Fills (data ++ data') (index ++ index') where
  only step member := by
    rw [steps_append_of_none second ended] at member
    rcases List.mem_append.1 member with member | member
    · exact fills.only step member
    · exact fills'.only step member
  data := by
    rw [steps_append_of_none second ended, List.flatMap_append, fills.data, fills'.data]
  index := by
    rw [steps_append_of_none second ended, List.flatMap_append, fills.index, fills'.index]

theorem written_writes (component : Component) (fields : List Bytes) :
    (fields.map (Step.write component)).flatMap (Step.written component) = fields.flatten := by
  rw [List.flatMap_map]
  simp [Step.written, List.flatMap_id']

theorem written_writes_of_ne {component other : Component} (differs : component ≠ other)
    (fields : List Bytes) :
    (fields.map (Step.write component)).flatMap (Step.written other) = [] := by
  rw [List.flatMap_map, List.flatMap_eq_nil_iff]
  intro bytes _
  exact if_neg differs

theorem fills_data (fields : List Bytes) :
    (ofFields .data (.ok fields)).Fills fields.flatten [] where
  only step member := by
    obtain ⟨bytes, -, rfl⟩ := List.mem_map.1 member
    exact .inl rfl
  data := written_writes .data fields
  index := written_writes_of_ne (by decide) fields

theorem fills_index (fields : List Bytes) :
    (ofFields .index (.ok fields)).Fills [] fields.flatten where
  only step member := by
    obtain ⟨bytes, -, rfl⟩ := List.mem_map.1 member
    exact .inr rfl
  data := written_writes_of_ne (by decide) fields
  index := written_writes .index fields

theorem fills_notify (notice : Notice) : (ofSteps [.notify notice]).Fills [] [] where
  only step member := by
    rw [List.mem_singleton.1 member]
    trivial
  data := rfl
  index := rfl

theorem ofFields_eq_none_iff {component : Component} {fields : Except TableError (List Bytes)} :
    (ofFields component fields).fault = none ↔ ∃ bytes, fields = .ok bytes := by
  cases fields with
  | error error => exact ⟨nofun, fun ⟨_, same⟩ => nomatch same⟩
  | ok bytes => exact ⟨fun _ => ⟨bytes, rfl⟩, fun _ => rfl⟩

end Script

theorem EncodedElement.fills_steps (encoded : List EncodedElement) (fault : Option TableError) :
    Script.Fills ⟨encoded.flatMap EncodedElement.steps, fault⟩
      (encoded.flatMap EncodedElement.fields).flatten [] := by
  induction encoded with
  | nil => exact ⟨nofun, rfl, rfl⟩
  | cons first rest ih =>
      constructor
      · intro step member
        rw [List.flatMap_cons, List.mem_append] at member
        rcases member with member | member
        · rcases List.mem_append.1 member with member | member
          · obtain ⟨bytes, -, rfl⟩ := List.mem_map.1 member
            exact .inl rfl
          · rw [List.mem_singleton.1 member]
            trivial
        · exact ih.only step member
      · have further := ih.data
        dsimp only at further ⊢
        have whole : (List.flatMap fields (first :: rest)).flatten =
            first.fields.flatten ++ (rest.flatMap fields).flatten := by
          rw [List.flatMap_cons, List.flatten_append]
        rw [whole, List.flatMap_cons, List.flatMap_append, further, steps, List.flatMap_append,
          Script.written_writes]
        exact congrArg (· ++ _) (List.append_nil _)
      · have further := ih.index
        dsimp only at further ⊢
        rw [List.flatMap_cons, List.flatMap_append, further, steps, List.flatMap_append,
          Script.written_writes_of_ne (by decide)]
        rfl

namespace Partition

/-- What the script of a partition writes: its encoding to the data and its entry to the index. -/
structure Written (partition : Partition) (blockSize : UInt64) (position : Position) where
  encoding : partition.Encoding
  blocks : List Block
  entry : List Bytes
  blocks_eq : partition.blocks blockSize position.data encoding.elements = .ok blocks
  entry_eq : IndexEntry.fields partition.key ⟨position.data, blocks⟩ = .ok entry

/-- Without a fault the static row is written whole, if there is one. -/
theorem fills_static {partition : Partition}
    (ended : (partition.writtenStaticRow.elim (Script.ofSteps []) Row.staticScript).fault = none) :
    ∃ fields, partition.writtenStaticRow.elim (.ok []) Row.staticFields = .ok fields ∧
      (partition.writtenStaticRow.elim (.ofSteps []) Row.staticScript).Fills fields.flatten [] := by
  cases held : partition.writtenStaticRow with
  | none => exact ⟨[], rfl, nofun, rfl, rfl⟩
  | some row =>
      rw [held] at ended
      obtain ⟨written, -⟩ := Script.fault_append_eq_none_iff.1 ended
      obtain ⟨fields, same⟩ := Script.ofFields_eq_none_iff.1 written
      have fills := (Script.fills_data fields).append (Script.fills_notify (.staticRow row)) rfl
      rw [List.append_nil, List.append_nil] at fills
      refine ⟨fields, same, ?_⟩
      change (Row.staticScript row).Fills fields.flatten []
      rwa [Row.staticScript, same]

/-- Without a fault a partition is opened with its header and its static row. -/
theorem fills_openingScript {partition : Partition} {position : Position}
    (ended : (partition.openingScript position).fault = none) :
    ∃ header row,
      headerFields partition.key partition.deletion partition.writtenStaticRow.isSome = .ok header ∧
      partition.writtenStaticRow.elim (.ok []) Row.staticFields = .ok row ∧
      (partition.openingScript position).Fills (header.flatten ++ row.flatten) [] := by
  obtain ⟨announced, rest⟩ := Script.fault_append_eq_none_iff.1 ended
  obtain ⟨headed, rowed⟩ := Script.fault_append_eq_none_iff.1 rest
  obtain ⟨header, headerEq⟩ := Script.ofFields_eq_none_iff.1 headed
  obtain ⟨row, rowEq, rowFills⟩ := fills_static rowed
  refine ⟨header, row, headerEq, rowEq, ?_⟩
  have fills := (Script.fills_notify
    (.partition partition.key position.data position.index)).append
    ((Script.fills_data header).append rowFills rfl) rfl
  rw [List.nil_append, List.nil_append, List.nil_append] at fills
  rwa [openingScript, headerEq]

/-- Without a fault a partition is closed with the mark of its end and its entry in the index. -/
theorem fills_closingScript {key : Key} {start : UInt64} {blocks : Except Overflow (List Block)}
    (ended : (closingScript key start blocks).fault = none) :
    ∃ cut entry, blocks = .ok cut ∧ IndexEntry.fields key ⟨start, cut⟩ = .ok entry ∧
      (closingScript key start blocks).Fills endMark entry.flatten := by
  cases blocks with
  | error cause => cases ended
  | ok cut =>
      obtain ⟨-, entered⟩ := Script.fault_append_eq_none_iff.1 ended
      obtain ⟨entry, same⟩ := Script.ofFields_eq_none_iff.1 entered
      refine ⟨cut, entry, rfl, same, ?_⟩
      have mark : (Script.ofSteps [.write .data endMark]).Fills endMark [] :=
        ⟨fun step member => by rw [List.mem_singleton.1 member]; exact .inl rfl, rfl, rfl⟩
      have fills := mark.append (Script.fills_index entry) rfl
      rw [List.append_nil, List.nil_append] at fills
      rwa [closingScript, same]

/-- A script without a fault adds the partition to the data and its entry to the index. -/
theorem fills_script {partition : Partition} {blockSize : UInt64} {position : Position}
    (ended : (partition.script blockSize position).fault = none) :
    ∃ written : partition.Written blockSize position,
      (partition.script blockSize position).Fills written.encoding.bytes written.entry.flatten := by
  unfold script at ended ⊢
  cases encodes : EncodedElement.ofElements partition.elements with
  | mk encoded fault =>
  rw [encodes] at ended
  dsimp only at ended ⊢
  obtain ⟨opened, ended⟩ := Script.fault_append_eq_none_iff.1 ended
  obtain ⟨whole, closed⟩ := Script.fault_append_eq_none_iff.1 ended
  obtain rfl : fault = none := Option.map_eq_none_iff.1 whole
  have each := EncodedElement.ofElements_eq_none_iff.1 encodes
  obtain ⟨header, row, headerEq, rowEq, opening⟩ := fills_openingScript opened
  obtain ⟨blocks, entry, cut, entryEq, closing⟩ := fills_closingScript closed
  refine ⟨⟨⟨header, row, encoded, headerEq, rowEq, each⟩, blocks, entry, cut, entryEq⟩, ?_⟩
  have all := opening.append ((EncodedElement.fills_steps encoded none).append closing rfl) opened
  rw [List.nil_append, List.nil_append, List.append_assoc] at all
  exact all

end Partition

namespace Drafts

variable {drafts : Drafts} {component : Component}

/-- Writing fields to an open component adds them to its draft. -/
theorem steps_writes {before : Bytes} {isFinal : Bool}
    (held : drafts component = some ⟨before, true, isFinal⟩) (fields : List Bytes) :
    drafts.steps (fields.map (.write component)) =
      some (Function.update drafts component (some ⟨before ++ fields.flatten, true, isFinal⟩)) := by
  induction fields generalizing drafts before with
  | nil =>
      rw [List.flatten_nil, List.append_nil, ← held, Function.update_eq_self]
      rfl
  | cons bytes rest ih =>
      rw [List.map_cons, Drafts.steps, Drafts.step, held]
      dsimp only
      rw [Option.bind_some, ih (Function.update_self ..), Function.update_idem, List.flatten_cons,
        List.append_assoc]

/-- A new component is created, filled and closed. -/
theorem steps_component (nothing : drafts component = none) (fields : List Bytes) :
    drafts.steps (componentScript component (.ok fields)).steps =
      some (Function.update drafts component (some ⟨fields.flatten, false, false⟩)) := by
  change drafts.steps (.create component ::
    (fields.map (.write component) ++ [.close component])) = _
  rw [Drafts.steps, Drafts.step, nothing]
  dsimp only
  rw [Option.bind_some, steps_append, steps_writes (Function.update_self ..), Option.bind_some,
    Drafts.steps, Drafts.step, Function.update_self]
  dsimp only
  rw [Option.bind_some, Drafts.steps, Function.update_idem, Function.update_idem, List.nil_append]

/-- A script of two parts changes the drafts as its parts do one after the other. -/
theorem steps_append_of_none {first second : Script} {middle last : Drafts}
    (front : drafts.steps first.steps = some middle) (ended : first.fault = none)
    (back : middle.steps second.steps = some last) :
    drafts.steps (first ++ second).steps = some last := by
  rw [Script.steps_append_of_none second ended, steps_append, front]
  exact back

/-- The drafts of a table whose data and index are closed. -/
def closed (data index : Bytes) (isFinal : Bool) (filter statistics contents : Option Draft) : Drafts
  | .data => some ⟨data, false, isFinal⟩
  | .index => some ⟨index, false, isFinal⟩
  | .filter => filter
  | .statistics => statistics
  | .contents => contents

/-- The drafts of a committed table, with a filter or without one. -/
def committed (data index statistics contents : Bytes) (filter : Option Bytes) : Drafts :=
  closed data index true (filter.map fun bytes => ⟨bytes, false, true⟩)
    (some ⟨statistics, false, true⟩) (some ⟨contents, false, true⟩)

/-- The bytes of the filter of a table, if it gets one. -/
def filterBytes (version : Version) (filter : Filter) : Option Bytes :=
  if filter.isInformative then some (filter.storedFields version.filterFormat).flatten else none

/-- The draft of the filter of a table, if it gets one. -/
def filterDraft (version : Version) (filter : Filter) (isFinal : Bool) : Option Draft :=
  (filterBytes version filter).map fun bytes => ⟨bytes, false, isFinal⟩

/-- The components of a committed table. -/
theorem committed_ne_none_iff {data index statistics contents : Bytes} {version : Version}
    {filter : Filter} {component : Component} :
    committed data index statistics contents (filterBytes version filter) component ≠ none ↔
      component ∈ tableComponents filter ++ [.contents] := by
  unfold filterBytes tableComponents
  by_cases informative : filter.isInformative = true
  · rw [if_pos informative, if_pos informative]
    cases component <;> simp [committed, closed]
  · rw [if_neg informative, if_neg informative]
    cases component <;> simp [committed, closed]

/-- The files of a committed table are closed and have their final names. -/
theorem isFinal_of_committed {data index statistics contents : Bytes} {filter : Option Bytes}
    {component : Component} {draft : Draft}
    (held : committed data index statistics contents filter component = some draft) :
    draft.isFinal = true ∧ draft.isOpen = false := by
  cases component with
  | filter =>
      obtain ⟨bytes, -, rfl⟩ := Option.map_eq_some_iff.1 held
      exact ⟨rfl, rfl⟩
  | data => cases held; exact ⟨rfl, rfl⟩
  | index => cases held; exact ⟨rfl, rfl⟩
  | statistics => cases held; exact ⟨rfl, rfl⟩
  | contents => cases held; exact ⟨rfl, rfl⟩

/-- The script that adds the filter of a table, if it gets one. -/
def filterScript (version : Version) (filter : Filter) : Script :=
  if filter.isInformative then
    componentScript .filter (.ok (filter.storedFields version.filterFormat))
  else .ofSteps []

theorem fault_filterScript (version : Version) (filter : Filter) :
    (filterScript version filter).fault = none := by
  unfold filterScript
  split <;> rfl

/-- The filter is added to the finished data and index. -/
theorem steps_filterScript (version : Version) (filter : Filter) (data index : Bytes) :
    (closed data index false none none none).steps (filterScript version filter).steps =
      some (closed data index false (filterDraft version filter false) none none) := by
  unfold filterScript filterDraft filterBytes
  by_cases informative : filter.isInformative = true
  · rw [if_pos informative, if_pos informative, steps_component rfl]
    refine congrArg some ?_
    funext component
    cases component <;> rfl
  · rw [if_neg informative, if_neg informative]
    rfl

/-- All components besides the list of contents get their final names. -/
theorem steps_renames (version : Version) (filter : Filter) (data index statistics : Bytes) :
    (closed data index false (filterDraft version filter false)
      (some ⟨statistics, false, false⟩) none).steps
        (Script.ofSteps ((tableComponents filter).map .rename)).steps =
      some (closed data index true (filterDraft version filter true)
        (some ⟨statistics, false, true⟩) none) := by
  unfold tableComponents filterDraft filterBytes
  by_cases informative : filter.isInformative = true
  · rw [if_pos informative, if_pos informative]
    refine congrArg some ?_
    funext component
    cases component <;> rfl
  · rw [if_neg informative, if_neg informative]
    refine congrArg some ?_
    funext component
    cases component <;> rfl

/-- A commit begins by closing the data and the index. -/
theorem steps_closing (data index : Bytes) :
    (filling data index).steps (Script.ofSteps [.close .data, .close .index]).steps =
      some (closed data index false none none none) := by
  refine congrArg some ?_
  funext component
  cases component <;> rfl

/-- A commit that can be encoded finishes the data and the index and adds the other components. -/
theorem steps_commit {version : Version} {filter : Filter} {statistics : Statistics}
    (ended : (commitScript version filter statistics).fault = none) (data index : Bytes) :
    ∃ fields, statistics.fields = .ok fields ∧
      (filling data index).steps (commitScript version filter statistics).steps =
        some (committed data index fields.flatten
          (Bytes.ofText (contentsText (tableComponents filter))) (filterBytes version filter)) := by
  unfold commitScript at ended ⊢
  dsimp only at ended ⊢
  obtain ⟨-, afterClosing⟩ := Script.fault_append_eq_none_iff.1 ended
  obtain ⟨-, afterFilter⟩ := Script.fault_append_eq_none_iff.1 afterClosing
  obtain ⟨summary, -⟩ := Script.fault_append_eq_none_iff.1 afterFilter
  obtain ⟨-, filled⟩ := Script.fault_append_eq_none_iff.1 summary
  obtain ⟨written, -⟩ := Script.fault_append_eq_none_iff.1 filled
  obtain ⟨fields, fieldsEq⟩ := Script.ofFields_eq_none_iff.1 written
  refine ⟨fields, fieldsEq, ?_⟩
  have summing : (closed data index false (filterDraft version filter false) none none).steps
      (componentScript .statistics (.ok fields)).steps =
      some (closed data index false (filterDraft version filter false)
        (some ⟨fields.flatten, false, false⟩) none) := by
    rw [steps_component rfl]
    refine congrArg some ?_
    funext component
    cases component <;> rfl
  have listing : (closed data index true (filterDraft version filter true)
      (some ⟨fields.flatten, false, true⟩) none).steps (componentScript .contents
        (.ok [Bytes.ofText (contentsText (tableComponents filter))])).steps =
      some (closed data index true (filterDraft version filter true)
        (some ⟨fields.flatten, false, true⟩)
        (some ⟨Bytes.ofText (contentsText (tableComponents filter)), false, false⟩)) := by
    rw [steps_component rfl, List.flatten_singleton]
    refine congrArg some ?_
    funext component
    cases component <;> rfl
  have committing : (closed data index true (filterDraft version filter true)
      (some ⟨fields.flatten, false, true⟩)
      (some ⟨Bytes.ofText (contentsText (tableComponents filter)), false, false⟩)).steps
      (Script.ofSteps [.rename .contents]).steps =
      some (committed data index fields.flatten
        (Bytes.ofText (contentsText (tableComponents filter))) (filterBytes version filter)) := by
    refine congrArg some ?_
    funext component
    cases component <;> rfl
  rw [fieldsEq]
  exact steps_append_of_none (steps_closing data index) rfl
    (steps_append_of_none (steps_filterScript version filter data index)
      (fault_filterScript version filter)
      (steps_append_of_none summing rfl
        (steps_append_of_none (steps_renames version filter data index fields.flatten) rfl
          (steps_append_of_none listing rfl committing))))

end Drafts

end SortedTable

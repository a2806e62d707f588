import SortedTable.Proofs.Outcome
import SortedTable.Proofs.Writer.Output

namespace SortedTable

/-- The cells that a notice shows. -/
def Notice.cells : Notice → List Cell
  | .staticRow row => row.cells
  | .element content => content.cells
  | _ => []

/-- What is told of a partition: its beginning, its static row unless it is empty, and its elements. -/
def Partition.notices (partition : Partition) (position : Position) : List Notice :=
  .partition partition.key position.data position.index ::
    (partition.writtenStaticRow.toList.map .staticRow ++ partition.elements.map .element)

theorem Row.cells_of_isEmpty {row : Row} (empty : row.isEmpty = true) : row.cells = [] := by
  rw [Row.isEmpty, Bool.and_eq_true] at empty
  exact List.isEmpty_iff.1 empty.1

/-- A partition that is empty has no cells. -/
theorem Partition.cells_of_isEmpty {partition : Partition} (empty : partition.isEmpty = true) :
    partition.cells = [] := by
  simp only [isEmpty, Bool.and_eq_true, List.isEmpty_iff] at empty
  obtain ⟨⟨-, row⟩, elements⟩ := empty
  rw [cells, elements]
  cases held : partition.staticRow with
  | none => rfl
  | some static =>
      rw [held] at row
      exact congrArg (· ++ []) (Row.cells_of_isEmpty row)

/-- The notices of a partition show all of its cells, in order. -/
theorem Partition.cells_notices (partition : Partition) (position : Position) :
    (partition.notices position).flatMap Notice.cells = partition.cells := by
  have elements : (partition.elements.map Notice.element).flatMap Notice.cells =
      partition.elements.flatMap Element.cells := by
    rw [List.flatMap_map]
    rfl
  have shown : (partition.writtenStaticRow.toList.map Notice.staticRow).flatMap Notice.cells =
      partition.staticRow.elim [] Row.cells := by
    unfold writtenStaticRow normalized
    cases held : partition.staticRow with
    | none => rfl
    | some row =>
        by_cases empty : row.isEmpty = true
        · simp [Option.filter, empty, Row.cells_of_isEmpty empty]
        · simp [Option.filter, empty, Notice.cells]
  rw [notices, List.flatMap_cons, List.flatMap_append, elements, shown]
  rfl

/-- What a step tells. -/
def Step.notices : Step → List Notice
  | .notify notice => [notice]
  | _ => []

namespace Stage

variable (setting : Setting)

theorem deliveries_emit (store : Store) (output : Output) (chunks : List Bytes) :
    (emit store output chunks).1.deliveries = store.deliveries :=
  (carries_emit store output chunks).deliveries

theorem deliveries_drain (store : Store) (output : Output) :
    (drain store output).deliveries = store.deliveries :=
  deliveries_emit store output output.buffer.drained

theorem deliveries_create (stage : Stage) (component : Component) :
    (stage.create setting component).1.store.deliveries = stage.store.deliveries := by
  unfold create
  split
  · rfl
  · split
    · rfl
    · exact stage.store.deliveries_changeAll _

theorem deliveries_write (stage : Stage) (component : Component) (bytes : Bytes) :
    (stage.write setting component bytes).1.store.deliveries = stage.store.deliveries := by
  unfold write
  split
  · rfl
  · dsimp only
    by_cases keeps : (setting.medium.sink component).keeps = true
    · rw [if_pos keeps]
      exact (carries_absorb stage.store _ _).deliveries
    · rw [if_neg keeps]
      rfl

theorem deliveries_close (stage : Stage) (component : Component) :
    (stage.close setting component).1.store.deliveries = stage.store.deliveries := by
  unfold close
  split
  · rfl
  · exact deliveries_drain stage.store _

theorem deliveries_rename (stage : Stage) (component : Component) :
    (stage.rename setting component).1.store.deliveries = stage.store.deliveries := by
  unfold rename
  split
  · rfl
  · split
    · rename_i performed
      obtain ⟨changes, -, rfl⟩ := Except.map_eq_ok_iff.1 performed
      exact stage.store.deliveries_changeAll changes
    · rfl

/-- A step delivers what it tells. -/
theorem deliveries_perform (stage : Stage) (step : Step) :
    (stage.perform setting step).1.store.deliveries =
      stage.store.deliveries ++ deliveriesTo setting.observers step.notices := by
  cases step with
  | notify notice => exact stage.store.deliveries_deliver setting.observers notice
  | create component =>
      exact (deliveries_create setting stage component).trans (List.append_nil _).symm
  | write component bytes =>
      exact (deliveries_write setting stage component bytes).trans (List.append_nil _).symm
  | close component =>
      exact (deliveries_close setting stage component).trans (List.append_nil _).symm
  | rename component =>
      exact (deliveries_rename setting stage component).trans (List.append_nil _).symm

theorem notices_of_perform_fails {stage : Stage} {step : Step} {error : TableError}
    (failed : (stage.perform setting step).2 = some error) : step.notices = [] := by
  cases step with
  | notify notice => cases failed
  | create component => rfl
  | write component bytes => rfl
  | close component => rfl
  | rename component => rfl

/-- Steps deliver a front part of what they tell, and all of it if none fails. -/
theorem deliveries_performAll (stage : Stage) (steps : List Step) :
    ∃ told, told <+: steps.flatMap Step.notices ∧
      ((stage.performAll setting steps).2 = none → told = steps.flatMap Step.notices) ∧
      (stage.performAll setting steps).1.store.deliveries =
        stage.store.deliveries ++ deliveriesTo setting.observers told := by
  induction steps generalizing stage with
  | nil => exact ⟨[], List.nil_prefix, fun _ => rfl, (List.append_nil _).symm⟩
  | cons step rest ih =>
      have first := deliveries_perform setting stage step
      rw [performAll, List.flatMap_cons]
      split
      · rename_i next error failed
        rw [failed] at first
        have silent := notices_of_perform_fails setting (congrArg Prod.snd failed)
        rw [silent] at first ⊢
        exact ⟨[], List.nil_prefix, nofun, first⟩
      · rename_i next done
        rw [done] at first
        obtain ⟨told, front, whole, delivered⟩ := ih next
        refine ⟨step.notices ++ told, (List.prefix_append_right_inj _).2 front,
          fun none => congrArg (step.notices ++ ·) (whole none), ?_⟩
        rw [delivered, first, deliveriesTo_append, List.append_assoc]

/-- Closing and removing files tells nothing. -/
theorem deliveries_clear (stage : Stage) :
    (stage.clear setting).deliveries = stage.store.deliveries := by
  have discarded (store : Store) (text : String) :
      (discard store text).deliveries = store.deliveries := by
    unfold discard
    split
    · rename_i performed
      obtain ⟨changes, -, rfl⟩ := Except.map_eq_ok_iff.1 performed
      exact store.deliveries_changeAll changes
    · rfl
  have drained (outputs : List Output) (store : Store) :
      (outputs.foldl drain store).deliveries = store.deliveries := by
    induction outputs generalizing store with
    | nil => rfl
    | cons output rest ih => exact (ih _).trans (deliveries_drain store output)
  have removed (components : List Component) (store : Store) :
      (components.foldl (fun store component =>
        discard (discard store (setting.descriptor.temporaryPath component))
          (setting.descriptor.finalPath component)) store).deliveries = store.deliveries := by
    induction components generalizing store with
    | nil => rfl
    | cons component rest ih =>
        exact (ih _).trans ((discarded _ _).trans (discarded _ _))
  exact (removed stage.created _).trans (drained stage.outputs stage.store)

end Stage

namespace Script

/-- The steps of the script tell a front part of these notices, and all of them without a fault. -/
def Tells (script : Script) (notices : List Notice) : Prop :=
  script.steps.flatMap Step.notices <+: notices ∧
    (script.fault = none → script.steps.flatMap Step.notices = notices)

theorem steps_append_of_none {first : Script} (second : Script) (ended : first.fault = none) :
    (first ++ second).steps = first.steps ++ second.steps := by
  change (followedBy first second).steps = _
  rw [followedBy, ended]

theorem append_of_some {first : Script} {error : TableError} (second : Script)
    (ended : first.fault = some error) : first ++ second = first := by
  change followedBy first second = first
  rw [followedBy, ended]

/-- A script of two parts has no fault exactly if neither part has one. -/
theorem fault_append_eq_none_iff {first second : Script} :
    (first ++ second).fault = none ↔ first.fault = none ∧ second.fault = none := by
  rw [fault_append]
  cases first.fault <;> simp

theorem Tells.append {first second : Script} {front back : List Notice} (tells : first.Tells front)
    (tells' : second.Tells back) : (first ++ second).Tells (front ++ back) := by
  cases ended : first.fault with
  | none =>
      obtain ⟨below, whole⟩ := tells'
      constructor
      · rw [steps_append_of_none second ended, List.flatMap_append, tells.2 ended]
        exact (List.prefix_append_right_inj _).2 below
      · intro none
        rw [steps_append_of_none second ended, List.flatMap_append, tells.2 ended,
          whole (fault_append_eq_none_iff.1 none).2]
  | some error =>
      rw [append_of_some second ended]
      exact ⟨tells.1.trans (List.prefix_append _ _), fun none => by rw [ended] at none; cases none⟩

theorem tells_ofSteps (steps : List Step) :
    (ofSteps steps).Tells (steps.flatMap Step.notices) :=
  ⟨List.prefix_rfl, fun _ => rfl⟩

theorem notices_writes (component : Component) (fields : List Bytes) :
    (fields.map (Step.write component)).flatMap Step.notices = [] := by
  rw [List.flatMap_eq_nil_iff]
  rintro step member
  obtain ⟨bytes, -, rfl⟩ := List.mem_map.1 member
  rfl

theorem tells_ofFields (component : Component) (fields : Except TableError (List Bytes)) :
    (ofFields component fields).Tells [] := by
  cases fields with
  | error error => exact ⟨List.nil_prefix, nofun⟩
  | ok fields =>
      rw [← notices_writes component fields]
      exact tells_ofSteps _

end Script

theorem EncodedElement.elements_ofElements (elements : List Element) :
    (ofElements elements).1.map EncodedElement.element <+: elements ∧
      ((ofElements elements).2 = none →
        (ofElements elements).1.map EncodedElement.element = elements) := by
  induction elements with
  | nil => exact ⟨List.prefix_rfl, fun _ => rfl⟩
  | cons element rest ih =>
      unfold ofElements
      split
      · exact ⟨List.nil_prefix, nofun⟩
      · rename_i encoded written
        have same : encoded.element = element := by
          obtain ⟨⟨kind, body⟩, -, written⟩ := Except.bind_eq_ok_iff.1 written
          obtain ⟨fields, -, written⟩ := Except.bind_eq_ok_iff.1 written
          cases Except.pure_eq_ok_iff.1 written
          rfl
        rw [List.map_cons, same]
        exact ⟨(List.prefix_cons_inj element).2 ih.1,
          fun none => congrArg (element :: ·) (ih.2 none)⟩

theorem EncodedElement.notices_steps (encoded : List EncodedElement) :
    (encoded.flatMap EncodedElement.steps).flatMap Step.notices =
      (encoded.map EncodedElement.element).map Notice.element := by
  induction encoded with
  | nil => rfl
  | cons first rest ih =>
      rw [List.flatMap_cons, List.flatMap_append, ih, steps, List.flatMap_append,
        Script.notices_writes]
      rfl

/-- Writing a partition tells its notices. -/
theorem Partition.tells_script (partition : Partition) (blockSize : UInt64) (position : Position) :
    (partition.script blockSize position).Tells (partition.notices position) := by
  have announced : (Script.ofSteps [.notify
      (.partition partition.key position.data position.index)]).Tells
      [.partition partition.key position.data position.index] := Script.tells_ofSteps _
  have static : (partition.writtenStaticRow.elim (.ofSteps []) Row.staticScript).Tells
      (partition.writtenStaticRow.toList.map .staticRow) := by
    cases partition.writtenStaticRow with
    | none => exact Script.tells_ofSteps []
    | some row =>
        exact (Script.tells_ofFields .data row.staticFields).append (Script.tells_ofSteps _)
  have opening : (partition.openingScript position).Tells
      (.partition partition.key position.data position.index ::
        partition.writtenStaticRow.toList.map .staticRow) :=
    announced.append ((Script.tells_ofFields _ _).append static)
  have elements : Script.Tells
      ⟨(EncodedElement.ofElements partition.elements).1.flatMap EncodedElement.steps,
        (EncodedElement.ofElements partition.elements).2.map .io⟩
      (partition.elements.map .element) := by
    obtain ⟨below, whole⟩ := EncodedElement.elements_ofElements partition.elements
    constructor
    · rw [EncodedElement.notices_steps]
      exact below.map _
    · intro none
      rw [EncodedElement.notices_steps, whole (Option.map_eq_none_iff.1 none)]
  have closing (outcome : Except Overflow (List Block)) :
      (closingScript partition.key position.data outcome).Tells [] := by
    cases outcome with
    | error cause => exact ⟨List.nil_prefix, nofun⟩
    | ok blocks => exact (Script.tells_ofSteps _).append (Script.tells_ofFields _ _)
  have all := opening.append (elements.append (closing
    (partition.blocks blockSize position.data (EncodedElement.ofElements partition.elements).1)))
  rw [List.append_nil] at all
  exact all

/-- Committing a table tells nothing before the table is complete. -/
theorem tells_commitScript (version : Version) (filter : Filter) (statistics : Statistics) :
    (commitScript version filter statistics).Tells [] := by
  have silent (component : Component) (fields : Except TableError (List Bytes)) :
      (componentScript component fields).Tells [] :=
    (Script.tells_ofSteps _).append ((Script.tells_ofFields _ _).append (Script.tells_ofSteps _))
  have filtered : (if filter.isInformative then
      componentScript .filter (.ok (filter.storedFields version.filterFormat))
      else .ofSteps []).Tells [] := by
    split
    · exact silent _ _
    · exact Script.tells_ofSteps []
  have renamed : (Script.ofSteps ((tableComponents filter).map .rename)).Tells [] := by
    have none : ((tableComponents filter).map Step.rename).flatMap Step.notices = [] := by
      rw [List.flatMap_eq_nil_iff]
      rintro step member
      obtain ⟨component, -, rfl⟩ := List.mem_map.1 member
      rfl
    rw [← none]
    exact Script.tells_ofSteps _
  exact (Script.tells_ofSteps [.close .data, .close .index]).append (filtered.append
    ((silent _ _).append (renamed.append ((silent _ _).append
      (Script.tells_ofSteps [.rename .contents])))))

/-- Running a script delivers a front part of its notices, and all of them if it succeeds. -/
theorem Stage.deliveries_run {setting : Setting} {script : Script} {notices : List Notice}
    (tells : script.Tells notices) (stage : Stage) :
    ∃ told, told <+: notices ∧ ((stage.run setting script).2 = none → told = notices) ∧
      (stage.run setting script).1.store.deliveries =
        stage.store.deliveries ++ deliveriesTo setting.observers told := by
  obtain ⟨told, below, whole, delivered⟩ := deliveries_performAll setting stage script.steps
  refine ⟨told, below.trans tells.1, ?_, ?_⟩
  · intro none
    rw [run] at none
    split at none
    · cases none
    · rename_i done
      rw [whole (congrArg Prod.snd done), tells.2 none]
  · rw [← delivered, run]
    split <;> rename_i done <;> rw [done]

end SortedTable

import SortedTable.Flush
import SortedTable.Proofs.Layout.Records
import SortedTable.Proofs.Memtable
import SortedTable.Proofs.Writer.Run

namespace SortedTable

/-- The error says that keys are out of order. -/
def TableError.IsDisorder : TableError → Prop
  | .outOfOrder _ _ => True
  | _ => False

/-- An operation that does not fail because of keys out of order. -/
def IsOrderly {α : Type} (outcome : Except TableError α) : Prop :=
  ∀ error, outcome = .error error → ¬error.IsDisorder

namespace IsOrderly

variable {α β : Type}

theorem ok (value : α) : IsOrderly (.ok value) := nofun

theorem error {cause : TableError} (other : ¬cause.IsDisorder) :
    IsOrderly (.error cause : Except TableError α) := by
  rintro _ ⟨⟩
  exact other

theorem io (outcome : Except IoError α) : IsOrderly (liftIo outcome) := by
  cases outcome with
  | ok value => exact ok value
  | error cause => exact error not_false

theorem bind {first : Except TableError α} {next : α → Except TableError β}
    (orderly : IsOrderly first) (further : ∀ value, IsOrderly (next value)) :
    IsOrderly (first >>= next) := by
  cases first with
  | ok value => exact further value
  | error cause =>
      rintro _ ⟨⟩
      exact orderly cause rfl

theorem map {first : Except TableError α} (orderly : IsOrderly first) (change : α → β) :
    IsOrderly (first.map change) := by
  cases first with
  | ok value => exact ok (change value)
  | error cause =>
      rintro _ ⟨⟩
      exact orderly cause rfl

end IsOrderly

namespace Decoder

variable {α β : Type}

/-- A decoder that does not fail because of keys out of order. -/
def IsOrderly (decoder : Decoder TableError α) : Prop := ∀ bytes, SortedTable.IsOrderly (decoder bytes)

namespace IsOrderly

theorem pure (value : α) : IsOrderly (Pure.pure value) := fun _ => .ok _

theorem fail {cause : TableError} (other : ¬cause.IsDisorder) :
    IsOrderly (Decoder.fail cause : Decoder TableError α) := fun _ => .error other

theorem bind {decoder : Decoder TableError α} {next : α → Decoder TableError β}
    (orderly : IsOrderly decoder) (further : ∀ value, IsOrderly (next value)) :
    IsOrderly (decoder >>= next) := fun bytes =>
  (orderly bytes).bind fun taken => further taken.1 taken.2

theorem take (count : Nat) : IsOrderly (Decoder.take count) := by
  intro bytes
  rw [Decoder.take]
  split
  · exact .ok _
  · exact .error not_false

theorem map {decoder : Decoder TableError α} (orderly : IsOrderly decoder) (change : α → β) :
    IsOrderly (change <$> decoder) := orderly.bind fun _ => .pure _

theorem little (width : Nat) : IsOrderly (Decoder.little width) := (take width).map _

theorem word64 : IsOrderly Decoder.word64 := (little 8).map _

theorem takePart (component : Component) (length : Nat) :
    IsOrderly (SortedTable.takePart component length) := by
  intro bytes
  rw [SortedTable.takePart]
  split
  · exact .ok _
  · exact .error not_false

theorem manyAfter {item : Decoder TableError α} (orderly : IsOrderly item) (count : Nat)
    (before : List α) : IsOrderly (Decoder.manyAfter item count before) := by
  induction count generalizing before with
  | zero => exact fun _ => .ok _
  | succ count ih =>
      intro bytes
      rw [Decoder.manyAfter]
      dsimp only
      split
      · exact ih _ _
      · rename_i cause failed
        exact .error (orderly bytes cause failed)

theorem many {item : Decoder TableError α} (orderly : IsOrderly item) (count : Nat) :
    IsOrderly (Decoder.many item count) := orderly.manyAfter count []

end IsOrderly

end Decoder

theorem Clustering.isOrderly_decode (component : Component) :
    Decoder.IsOrderly (Clustering.decode component) :=
  .bind (.little 2) (.many (.bind (.little 4) (.takePart component)))

theorem Block.isOrderly_decode : Decoder.IsOrderly Block.decode :=
  .bind (Clustering.isOrderly_decode .index) fun _ => .bind (Clustering.isOrderly_decode .index)
    fun _ => .bind .word64 fun _ => .bind .word64 fun _ => .pure _

theorem Block.isOrderly_decodeAll (bytes : Bytes) : IsOrderly (Block.decodeAll bytes) := by
  have counted : Decoder.IsOrderly (do Decoder.many Block.decode (← Decoder.little 4)) :=
    .bind (.little 4) (.many Block.isOrderly_decode)
  rw [decodeAll]
  split
  · exact .ok _
  · exact (counted bytes).map _

theorem IndexRecord.isOrderly_decodeBehind (keyLength : Nat) :
    Decoder.IsOrderly (decodeBehind keyLength) := by
  refine .bind (.take keyLength) fun key => .bind .word64 fun dataPosition =>
    .bind (.little 4) fun promotedLength => ?_
  split
  · exact .fail not_false
  · exact .bind (.take promotedLength) fun promoted => .pure _

theorem IndexEntry.isOrderly_decode? (bytes : Bytes) : IsOrderly (decode? bytes) := by
  rcases bytes with - | ⟨low, - | ⟨high, behind⟩⟩
  · exact .ok none
  · exact .ok none
  · rw [decode?]
    cases read : IndexRecord.decodeBehind (Bytes.ofLittleEndian [low, high]) behind with
    | error cause => exact .error (IndexRecord.isOrderly_decodeBehind _ _ _ read)
    | ok result => exact ((Block.isOrderly_decodeAll result.1.promoted).map _).map _

/-- A scan stops for another reason than keys out of order. -/
theorem IndexEntry.not_isDisorder_scan {bytes : Bytes} {error : TableError}
    (ended : (scan bytes).2 = some error) : ¬error.IsDisorder := by
  have scanned : scanAfter bytes 0 [] = ((scan bytes).1, some error) := Prod.ext rfl ended
  obtain ⟨-, -, back, -, -, unread, -⟩ := decode?_of_scanAfter scanned
  exact isOrderly_decode? back error unread

namespace Reader

theorem isOrderly_summarize (index : Bytes) : IsOrderly (summarize index) := by
  rw [summarize]
  dsimp only
  split
  · exact .error not_false
  · split
    · rename_i stopped
      exact .error (IndexEntry.not_isDisorder_scan stopped)
    · exact .ok _

theorem isOrderly_ofParts (medium : Medium) (disk : Disk) (descriptor : Descriptor)
    (filter : Filter) (statistics : Statistics) :
    IsOrderly (ofParts medium disk descriptor filter statistics) := by
  have medium' (component : Component) : IsOrderly (checkMedium medium component) := by
    rw [checkMedium]
    split
    · exact .error not_false
    · exact .ok _
  unfold ofParts
  refine .bind (medium' .index) fun _ => .bind (.io _) fun index => ?_
  split
  · exact .error not_false
  · refine .bind (.io _) fun bytes => .bind (isOrderly_summarize bytes) fun summary => ?_
    split
    · exact .error not_false
    · exact .bind (medium' .data) fun _ => .bind (.io _) fun data => .ok _

end Reader

theorem Key.isOrderly_fields (key : Key) : IsOrderly key.fields := by
  rw [fields]
  split
  · exact .ok _
  · exact .error not_false

theorem IndexEntry.isOrderly_fields (key : Key) (entry : IndexEntry) :
    IsOrderly (IndexEntry.fields key entry) :=
  .bind key.isOrderly_fields fun _ => .bind (.io _) fun _ => .bind (.io _) fun _ => .ok _

theorem Statistics.isOrderly_fields (statistics : Statistics) : IsOrderly statistics.fields := by
  have key (bytes : Bytes) : IsOrderly (encodeKey bytes) := by
    rw [encodeKey]
    split
    · exact .ok _
    · exact .error not_false
  have body : IsOrderly statistics.encodeBody :=
    .bind (key _) fun _ => .bind (key _) fun _ => .ok _
  exact body.map _

/-- A script that does not end because of keys out of order. -/
def Script.IsOrderly (script : Script) : Prop :=
  ∀ error, script.fault = some error → ¬error.IsDisorder

namespace Script.IsOrderly

theorem append {first second : Script} (orderly : first.IsOrderly) (orderly' : second.IsOrderly) :
    (first ++ second).IsOrderly := by
  intro error ended
  rw [fault_append] at ended
  cases fault : first.fault with
  | none =>
      rw [fault] at ended
      exact orderly' error ended
  | some cause =>
      rw [fault] at ended
      cases ended
      exact orderly _ fault

theorem ofSteps (steps : List Step) : (Script.ofSteps steps).IsOrderly := nofun

theorem ofFields {fields : Except TableError (List Bytes)} (orderly : SortedTable.IsOrderly fields)
    (component : Component) : (Script.ofFields component fields).IsOrderly := by
  cases fields with
  | ok fields => exact ofSteps _
  | error cause =>
      rintro _ ⟨⟩
      exact orderly cause rfl

end Script.IsOrderly

theorem Partition.isOrderly_script (partition : Partition) (blockSize : UInt64)
    (position : Position) : (partition.script blockSize position).IsOrderly := by
  have static : (partition.writtenStaticRow.elim (.ofSteps []) Row.staticScript).IsOrderly := by
    cases partition.writtenStaticRow with
    | none => exact .ofSteps []
    | some row => exact .append (.ofFields (.io _) .data) (.ofSteps _)
  have opening : (partition.openingScript position).IsOrderly :=
    .append (.ofSteps _) (.append (.ofFields (partition.key.isOrderly_fields.map _) .data) static)
  have closing (blocks : Except Overflow (List Block)) :
      (closingScript partition.key position.data blocks).IsOrderly := by
    cases blocks with
    | error cause =>
        rintro _ ⟨⟩
        exact not_false
    | ok blocks =>
        exact .append (.ofSteps _) (.ofFields (IndexEntry.isOrderly_fields _ _) .index)
  rw [script]
  refine opening.append (.append ?_ (closing _))
  intro error ended
  obtain ⟨cause, -, rfl⟩ := Option.map_eq_some_iff.1 ended
  exact not_false

theorem isOrderly_commitScript (version : Version) (filter : Filter) (statistics : Statistics) :
    (commitScript version filter statistics).IsOrderly := by
  have component {fields : Except TableError (List Bytes)} (orderly : IsOrderly fields)
      (component : Component) : (componentScript component fields).IsOrderly :=
    .append (.ofSteps _) (.append (.ofFields orderly component) (.ofSteps _))
  have filters : (if filter.isInformative then
      componentScript .filter (.ok (filter.storedFields version.filterFormat))
      else .ofSteps []).IsOrderly := by
    split
    · exact component (.ok _) .filter
    · exact .ofSteps []
  exact .append (.ofSteps _) (.append filters (.append
    (component statistics.isOrderly_fields .statistics)
    (.append (.ofSteps _) (.append (component (.ok _) .contents) (.ofSteps _)))))

namespace Stage

variable (setting : Setting) {error : TableError}

theorem not_isDisorder_perform (stage : Stage) (step : Step)
    (failed : (stage.perform setting step).2 = some error) : ¬error.IsDisorder := by
  have restated {cause : Option IoError} (same : cause.map TableError.io = some error) :
      ¬error.IsDisorder := by
    obtain ⟨cause, -, rfl⟩ := Option.map_eq_some_iff.1 same
    exact not_false
  cases step with
  | notify notice => cases failed
  | create component =>
      rw [perform, create] at failed
      split at failed
      · cases failed
        exact not_false
      · split at failed
        · cases failed
          exact not_false
        · cases failed
  | write component bytes =>
      rw [perform, write] at failed
      split at failed
      · cases failed
      · rcases Option.or_eq_some_iff.1 failed with large | ⟨-, refused⟩
        · rw [excess?] at large
          split at large
          · cases large
            exact not_false
          · split at large
            · cases large
              exact not_false
            · cases large
        · exact restated refused
  | close component =>
      rw [perform, close] at failed
      split at failed
      · cases failed
      · exact restated failed
  | rename component =>
      rw [perform, rename] at failed
      split at failed
      · cases failed
        exact not_false
      · split at failed
        · cases failed
        · cases failed
          exact not_false

theorem not_isDisorder_performAll (stage : Stage) (steps : List Step)
    (failed : (stage.performAll setting steps).2 = some error) : ¬error.IsDisorder := by
  induction steps generalizing stage with
  | nil => cases failed
  | cons step rest ih =>
      rw [performAll] at failed
      split at failed
      · rename_i broken
        cases failed
        exact not_isDisorder_perform setting stage step (congrArg Prod.snd broken)
      · exact ih _ failed

/-- A script on a stage fails because of keys out of order only if it ends for that reason itself. -/
theorem not_isDisorder_run (stage : Stage) {script : Script} (orderly : script.IsOrderly)
    (failed : (stage.run setting script).2 = some error) : ¬error.IsDisorder := by
  rw [run] at failed
  split at failed
  · rename_i broken
    cases failed
    exact not_isDisorder_performAll setting stage script.steps (congrArg Prod.snd broken)
  · exact orderly error failed

end Stage

namespace Writer

theorem isOrderly_build (plan : WriterPlan) (store : Store) : IsOrderly (build plan store).1 := by
  have prepared : IsOrderly (prepare plan store).1 := by
    rw [prepare]
    split
    · exact .error not_false
    · split
      · exact .error not_false
      · split
        · exact .error not_false
        · cases Filter.forTable plan.expected plan.settings.falsePositiveChance with
          | error cause => exact .error not_false
          | ok filter => exact .ok filter
  rw [build]
  split
  · rename_i refused
    exact .error (prepared _ (congrArg Prod.fst refused))
  · dsimp only
    split
    · rename_i broken
      exact .error (Stage.not_isDisorder_run _ _ (.ofSteps _) (congrArg Prod.snd broken))
    · exact .ok _

/-- A writer has no last key before its first partition. -/
theorem lastKey_of_build {plan : WriterPlan} {store later : Store} {writer : Writer}
    (built : build plan store = (.ok writer, later)) {progress : Progress}
    (held : writer.progress = some progress) : progress.lastKey = none := by
  have possible := builds plan store
  rw [built] at possible
  cases possible with
  | built filter stage made ran =>
      cases held
      rfl

/-- A key above the last one is not refused as out of order. -/
theorem not_isDisorder_refusal? {progress : Progress} {key : Key} {error : TableError}
    (above : ∀ last, progress.lastKey = some last → compare last key = .lt)
    (refused : refusal? progress key = some error) : ¬error.IsDisorder := by
  have ordered : (progress.lastKey.filter fun previous => !(compare previous key).isLT) = none := by
    rw [Option.filter_eq_none_iff]
    intro last held
    rw [above last held]
    decide
  rw [refusal?, ordered] at refused
  dsimp only at refused
  split at refused
  · cases refused
    exact not_false
  · cases refused

theorem isOrderly_append (writer : Writer) (partition : Partition) (store : Store)
    (above : ∀ progress last, writer.progress = some progress → progress.lastKey = some last →
      compare last partition.key = .lt) : IsOrderly (writer.append partition store).1 := by
  have possible := writer.appends partition store
  generalize writer.append partition store = outcome at possible ⊢
  cases possible with
  | aborted ended => exact .error not_false
  | refused progress error held refusal =>
      exact .error (not_isDisorder_refusal? (fun last => above progress last held) refusal)
  | skipped => exact .ok _
  | written => exact .ok _
  | broken progress stage error held ran =>
      exact .error (Stage.not_isDisorder_run _ _ (partition.isOrderly_script _ _)
        (congrArg Prod.snd ran))

/-- The last key of a writer is that of the partition it took last, also of an empty one. -/
theorem lastKey_of_append {writer next : Writer} {partition : Partition} {store later : Store}
    {landed : Option Position} (appended : writer.append partition store = (.ok landed, next, later))
    {progress : Progress} (held : next.progress = some progress) :
    progress.lastKey = some partition.key := by
  have possible := writer.appends partition store
  rw [appended] at possible
  cases possible with
  | skipped =>
      cases held
      rfl
  | written =>
      cases held
      rfl

/-- A writer that is given ascending keys above its last one does not report them as out of order. -/
theorem isOrderly_appendAll (writer : Writer) (store : Store) (partitions : List Partition)
    (ascending : (partitions.map Partition.key).Pairwise fun left right => compare left right = .lt)
    (above : ∀ progress last, writer.progress = some progress → progress.lastKey = some last →
      ∀ partition ∈ partitions, compare last partition.key = .lt) :
    IsOrderly (writer.appendAll store partitions).1 := by
  induction partitions generalizing writer store with
  | nil => exact .ok ()
  | cons partition rest ih =>
      obtain ⟨below, later⟩ := List.pairwise_cons.1 ascending
      have first := writer.isOrderly_append partition store fun progress last held same =>
        above progress last held same partition List.mem_cons_self
      rw [appendAll]
      split
      · rename_i refused
        exact .error (first _ (congrArg Prod.fst refused))
      · rename_i landed next middle appended
        refine ih next middle later fun progress last held same other member => ?_
        cases (lastKey_of_append appended held).symm.trans same
        exact below other.key (List.mem_map_of_mem member)

theorem isOrderly_finishAndOpen (writer : Writer) (store : Store) :
    IsOrderly (writer.finishAndOpen store).1 := by
  rw [finishAndOpen, commitThen]
  split
  · exact .error not_false
  · rename_i progress held
    have ending : Script.IsOrderly (if progress.statistics.partitions = 0 then ⟨[], some .empty⟩
        else commitScript writer.setting.descriptor.version progress.filter progress.statistics) := by
      split
      · rintro _ ⟨⟩
        exact not_false
      · exact isOrderly_commitScript _ _ _
    dsimp only
    split
    · rename_i broken
      exact .error (Stage.not_isDisorder_run _ _ ending (congrArg Prod.snd broken))
    · split
      · rename_i failed
        exact .error (Reader.isOrderly_ofParts _ _ _ _ _ _ failed)
      · exact .ok _

end Writer

/-- A flush never reports its keys as out of order. -/
theorem Memtable.isOrderly_flush (memtable : Memtable) (plan : WriterPlan) (store : Store) :
    IsOrderly (memtable.flush plan store).1 := by
  rw [flush]
  split
  · exact .error not_false
  · split
    · rename_i refused
      exact .error (Writer.isOrderly_build _ _ _ (congrArg Prod.fst refused))
    · rename_i writer begun built
      have given := writer.isOrderly_appendAll begun memtable.toList memtable.pairwise_keys
        fun progress last held same => by
          cases (Writer.lastKey_of_build built held).symm.trans same
      split
      · rename_i refused
        exact .error (given _ (congrArg Prod.fst refused))
      · exact Writer.isOrderly_finishAndOpen _ _

end SortedTable

import SortedTable.Reader
import SortedTable.Writer.Stage

namespace SortedTable

/-- What a writer is built from. -/
structure WriterPlan where
  descriptor : Descriptor
  /-- The number of partitions to expect; without any the table gets no filter. -/
  expected : UInt64 := 0
  settings : Settings := {}
  observers : Nat := 0
  medium : Medium := .sound
  deriving Inhabited

/-- What a writer gathers while it writes. -/
structure Progress where
  filter : Filter
  statistics : Statistics
  lastKey : Option Key := none
  deriving Inhabited

/-- A writer; without progress it has failed. -/
structure Writer where
  setting : Setting
  blockSize : UInt64
  created : List Component
  outputs : List Output
  progress : Option Progress
  deriving Inhabited

namespace Writer

def stage (writer : Writer) (store : Store) : Stage := ⟨store, writer.created, writer.outputs⟩

/-- The writer whose files are those of a stage. -/
def onStage (writer : Writer) (stage : Stage) (progress : Progress) : Writer :=
  { writer with created := stage.created, outputs := stage.outputs, progress := some progress }

/-- The writer after a failure. -/
def failed (writer : Writer) : Writer :=
  { writer with created := [], outputs := [], progress := none }

/-- The error of a call on a writer that has failed. -/
def abortedError (writer : Writer) : TableError := .aborted writer.setting.descriptor.render

/-- Checks the settings, makes the folder and gives the filter, unless the table is committed
already. -/
def prepare (plan : WriterPlan) (store : Store) : Except TableError Filter × Store :=
  match plan.settings.validate with
  | .error cause => (.error (.settings cause), store)
  | .ok () =>
      match store.createFolders plan.descriptor.directory with
      | (some cause, store) => (.error (.io cause), store)
      | (none, store) =>
          if plan.descriptor.isCommitted store.disk then
            (.error (.io (.tableExists plan.descriptor.render)), store)
          else
            ((Filter.forTable plan.expected plan.settings.falsePositiveChance).mapError .filter,
              store)

/-- Creates the data and the index and tells the observers that the writing begins. -/
def build (plan : WriterPlan) (store : Store) : Except TableError Writer × Store :=
  match prepare plan store with
  | (.error error, store) => (.error error, store)
  | (.ok filter, store) =>
      let setting : Setting :=
        ⟨plan.descriptor, plan.medium, plan.settings.sync, plan.observers⟩
      let script :=
        Script.ofSteps [.create .data, .create .index, .notify (.begin plan.expected)]
      match Stage.run setting ⟨store, [], []⟩ script with
      | (stage, some error) => (.error error, stage.clear setting)
      | (stage, none) =>
          let statistics := Statistics.empty plan.settings.falsePositiveChance.toBits
          (.ok
            { setting := setting
              blockSize := plan.settings.blockSize
              created := stage.created
              outputs := stage.outputs
              progress := some ⟨filter, statistics, none⟩ },
            stage.store)

/-- The position of an open component. -/
def positionOf (writer : Writer) (component : Component) : UInt64 :=
  ((writer.outputs.find? fun output => output.component = component).map fun output =>
    output.tracker.position).getD 0

/-- Where the next partition will land. -/
def nextPosition (writer : Writer) : Position := ⟨writer.positionOf .data, writer.positionOf .index⟩

/-- Where the next partition will land, unless the writer has failed. -/
def position? (writer : Writer) : Option Position := writer.progress.map fun _ => writer.nextPosition

/-- The number of partitions written so far. -/
def partitionCount (writer : Writer) : UInt64 :=
  writer.progress.elim 0 fun progress => progress.statistics.partitions

/-- Why a partition is refused at once: its key must be above the last one, and not too large. -/
def refusal? (progress : Progress) (key : Key) : Option TableError :=
  match progress.lastKey.filter fun previous => !(compare previous key).isLT with
  | some previous => some (.outOfOrder previous key)
  | none =>
      if maxKeyBytes < key.bytes.length then some (.keyTooLarge key.bytes.length) else none

/-- What is gathered from a partition that was written. -/
def Progress.add (progress : Progress) (partition : Partition) : Progress where
  filter := progress.filter.add partition.key.hash
  statistics := progress.statistics.add partition
  lastKey := some partition.key

/-- Gives up: closes and removes all files. -/
def giveUp (writer : Writer) (store : Store) : Writer × Store :=
  (writer.failed, (writer.stage store).clear writer.setting)

/-- Writes a partition, unless it is empty, and tells the observers; any error ends the writer. -/
def append (writer : Writer) (partition : Partition) (store : Store) :
    Except TableError (Option Position) × Writer × Store :=
  match writer.progress with
  | none => (.error writer.abortedError, writer, store)
  | some progress =>
      match refusal? progress partition.key with
      | some error => (.error error, writer.giveUp store)
      | none =>
          if partition.isEmpty then
            -- its key counts for the order all the same
            let progress := { progress with lastKey := some partition.key }
            (.ok none, { writer with progress := some progress }, store)
          else
            let position := writer.nextPosition
            let script := partition.script writer.blockSize position
            match Stage.run writer.setting (writer.stage store) script with
            | (stage, none) =>
                (.ok (some position), writer.onStage stage (Progress.add progress partition),
                  stage.store)
            | (stage, some error) => (.error error, writer.failed, stage.clear writer.setting)

/-- Commits the table, gives it to `reopen`, and tells the observers if both succeed. -/
def commitThen {α : Type} (writer : Writer)
    (reopen : Medium → Disk → Descriptor → Filter → Statistics → Except TableError α)
    (store : Store) : Except TableError α × Store :=
  match writer.progress with
  | none => (.error writer.abortedError, store)
  | some progress =>
      let setting := writer.setting
      let script : Script :=
        if progress.statistics.partitions = 0 then ⟨[], some .empty⟩
        else commitScript setting.descriptor.version progress.filter progress.statistics
      match Stage.run setting (writer.stage store) script with
      | (stage, some error) => (.error error, stage.clear setting)
      | (stage, none) =>
          match reopen setting.medium stage.store.disk setting.descriptor progress.filter
              progress.statistics with
          | .error error => (.error error, stage.clear setting)
          | .ok opened => (.ok opened, stage.store.deliver setting.observers .complete)

/-- Commits the table. -/
def finish (writer : Writer) (store : Store) : Except TableError Unit × Store :=
  writer.commitThen (fun _ _ _ _ _ => .ok ()) store

/-- Commits the table and opens it with the filter and the statistics at hand. -/
def finishAndOpen (writer : Writer) (store : Store) : Except TableError Reader × Store :=
  writer.commitThen Reader.ofParts store

/-- Ends a writer without committing its table. -/
def abort (writer : Writer) (store : Store) : Store :=
  match writer.progress with
  | none => store
  | some _ => (writer.giveUp store).2

end Writer

end SortedTable

import SortedTable.Descriptor
import SortedTable.Store
import SortedTable.WriteBuffer
import SortedTable.Writer.Medium
import SortedTable.Writer.Script

namespace SortedTable

/-- An open file of a component: a tracker, a sink, and a buffer in front of the file. -/
structure Output where
  component : Component
  file : FileId
  tracker : Tracker := {}
  buffer : WriteBuffer := .empty
  /-- The number of bytes that have reached the file. -/
  offset : Nat := 0
  deriving DecidableEq, Inhabited

/-- What a writer does not change. -/
structure Setting where
  descriptor : Descriptor
  medium : Medium
  /-- Whether finished files are forced to stable storage. -/
  sync : Bool
  observers : Nat
  deriving Inhabited

structure Stage where
  store : Store
  created : List Component := []
  outputs : List Output := []
  deriving Inhabited

namespace Stage

/-- Puts chunks behind what has reached the file of an output. -/
def emit (store : Store) (output : Output) (chunks : List Bytes) : Store × Output :=
  chunks.foldl (fun (store, output) chunk =>
    (store.change (.write output.file output.offset chunk),
      { output with offset := output.offset + chunk.length })) (store, output)

/-- Passes the parts that a sink took through the buffer. -/
def absorb (store : Store) (output : Output) : List Bytes → Store × Output
  | [] => (store, output)
  | part :: rest =>
      let (chunks, buffer) := output.buffer.push part
      let (store, output) := emit store { output with buffer := buffer } chunks
      absorb store output rest

/-- Lets what the buffer holds reach the file. -/
def drain (store : Store) (output : Output) : Store :=
  (emit store output output.buffer.drained).1

/-- The open file of a component. -/
def output? (stage : Stage) (component : Component) : Option Output :=
  stage.outputs.find? fun output => output.component = component

/-- Replaces the open file of a component. -/
def setOutput (stage : Stage) (output : Output) : Stage :=
  { stage with
    outputs := stage.outputs.map fun held =>
      if held.component = output.component then output else held }

def create (setting : Setting) (component : Component) (stage : Stage) :
    Stage × Option TableError :=
  match setting.medium.create component with
  | some cause => (stage, some (.io cause))
  | none =>
      match stage.store.disk.create (setting.descriptor.temporaryPath component) with
      | .error cause => (stage, some (.io cause))
      | .ok (file, changes) =>
          ({ store := stage.store.changeAll changes
             created := stage.created ++ [component]
             outputs := stage.outputs ++ [{ component := component, file := file }] }, none)

/-- The greatest file of the file system: as many blocks of 4096 bytes as thirty-two bits can count. -/
def maxFileBytes : Nat := (UInt32.size - 1) * 4096

/-- Why a component cannot hold this many bytes: the file is too large, or a position is no word. -/
def excess? (plan : SinkPlan) (taken : Nat) : Option TableError :=
  if plan.keeps && maxFileBytes < taken then some (.io (.other "File too large (os error 27)"))
  else if UInt64.size ≤ taken then some (.overflow .addition)
  else none

/-- Writes bytes to an open component. -/
def write (setting : Setting) (component : Component) (bytes : Bytes) (stage : Stage) :
    Stage × Option TableError :=
  match stage.output? component with
  | none => (stage, none)
  | some output =>
      let plan := setting.medium.sink component
      let transfer := plan.writeAll output.tracker bytes
      let output := { output with tracker := transfer.tracker }
      let (store, output) :=
        if plan.keeps then absorb stage.store output transfer.parts else (stage.store, output)
      ({ stage with store := store }.setOutput output,
        (excess? plan transfer.tracker.taken).or (transfer.fault.map .io))

def close (setting : Setting) (component : Component) (stage : Stage) :
    Stage × Option TableError :=
  match stage.output? component with
  | none => (stage, none)
  | some output =>
      let plan := setting.medium.sink component
      ({ stage with
         store := drain stage.store output
         outputs := stage.outputs.filter fun held => held.component ≠ component },
        (if setting.sync then plan.sync else plan.flush).map .io)

def rename (setting : Setting) (component : Component) (stage : Stage) :
    Stage × Option TableError :=
  match setting.medium.rename component with
  | some cause => (stage, some (.io cause))
  | none =>
      match stage.store.perform
          (·.rename (setting.descriptor.temporaryPath component)
            (setting.descriptor.finalPath component)) with
      | .ok store => ({ stage with store := store }, none)
      | .error cause => (stage, some (.io cause))

/-- Takes one step. The stage afterwards holds what was done even if the step fails. -/
def perform (setting : Setting) (stage : Stage) : Step → Stage × Option TableError
  | .notify notice =>
      ({ stage with store := stage.store.deliver setting.observers notice }, none)
  | .create component => stage.create setting component
  | .write component bytes => stage.write setting component bytes
  | .close component => stage.close setting component
  | .rename component => stage.rename setting component

/-- Takes steps in order until one fails. -/
def performAll (setting : Setting) (stage : Stage) : List Step → Stage × Option TableError
  | [] => (stage, none)
  | step :: rest =>
      match stage.perform setting step with
      | (stage, some error) => (stage, some error)
      | (stage, none) => stage.performAll setting rest

/-- Runs a script. -/
def run (setting : Setting) (stage : Stage) (script : Script) : Stage × Option TableError :=
  match stage.performAll setting script.steps with
  | (stage, some error) => (stage, some error)
  | (stage, none) => (stage, script.fault)

/-- Removes a file, if there is one. -/
def discard (store : Store) (text : String) : Store :=
  match store.perform (·.remove text) with
  | .ok store => store
  | .error _ => store

/-- Closes all files and removes every component that was created, under both of its names. -/
def clear (setting : Setting) (stage : Stage) : Store :=
  let store := stage.outputs.foldl drain stage.store
  stage.created.foldl (fun store component =>
    discard (discard store (setting.descriptor.temporaryPath component))
      (setting.descriptor.finalPath component)) store

end Stage

end SortedTable

import Std.Data.TreeSet
import SortedTable.Flush

namespace SortedTable

inductive SessionError where
  | settings (cause : SettingsError)
  | creating (directory : String) (cause : IoError)
  | listing (cause : IoError)
  | opening (table : String) (cause : TableError)
  | table (cause : TableError)
  /-- A count or a position does not fit its width. -/
  | overflow (cause : Overflow)

namespace SessionError

/-- The messages from an error down to its first cause. -/
def chain : SessionError → List String
  | .settings cause => [cause.message]
  | .creating directory cause => [s!"creating {directory}", cause.message]
  | .listing cause => [cause.message]
  | .opening name cause => s!"opening {name}" :: cause.chain
  | .table cause => cause.chain
  | .overflow cause => [cause.message]

/-- An error of a table, seen by a session that calls it `restate`; an overflow stays one. -/
def ofTable (restate : TableError → SessionError) : TableError → SessionError
  | .overflow cause => .overflow cause
  | error => restate error

/-- All messages in one line. -/
def message (error : SessionError) : String := ": ".intercalate error.chain

/-- A cause below an error, its further lines as far to the right as its first one. -/
def indented (mark cause : String) : String :=
  mark ++ ("\n".pushn ' ' mark.length).intercalate (cause.splitOn "\n")

/-- An error with its causes below it, numbered from zero if there are several. -/
def report (error : SessionError) : String :=
  match error.chain with
  | [] => ""
  | [message] => message
  | [message, cause] => s!"{message}\n\nCaused by:\n" ++ indented "    " cause
  | message :: causes =>
      s!"{message}\n\nCaused by:\n" ++
        "\n".intercalate (causes.zipIdx.map fun (cause, index) => indented s!"    {index}: " cause)

end SessionError

/-- A column of a row or of the static row, which come in this order. -/
structure Slot where
  isStatic : Bool
  clustering : Clustering
  column : String
  deriving DecidableEq, Inhabited

namespace Slot

instance : Ord Slot :=
  ⟨compareLex (compareOn isStatic) (compareLex (compareOn clustering) (compareOn column))⟩

instance : Std.TransOrd Slot :=
  inferInstanceAs (Std.TransCmp
    (compareLex (compareOn isStatic) (compareLex (compareOn clustering) (compareOn column))))

/-- Slots that compare equal are the same. -/
instance : Std.LawfulEqOrd Slot where
  eq_of_compare {left right} same := by
    have parts : (compareOn isStatic left right).then
        ((compareOn clustering left right).then (compareOn column left right)) = .eq := same
    rw [Ordering.then_eq_eq, Ordering.then_eq_eq] at parts
    obtain ⟨isStatic, clustering, column⟩ := left
    obtain ⟨isStatic', clustering', column'⟩ := right
    have first : isStatic = isStatic' := Std.LawfulEqCmp.eq_of_compare parts.1
    have second : clustering = clustering' := Std.LawfulEqCmp.eq_of_compare parts.2.1
    have third : column = column' := Std.LawfulEqCmp.eq_of_compare parts.2.2
    cases first
    cases second
    cases third
    rfl

end Slot

/-- The cells of a row with their slots. -/
def Row.slots (row : Row) (isStatic : Bool) : List (Slot × Cell) :=
  row.cells.map fun cell => (⟨isStatic, if isStatic then [] else row.clustering, cell.column⟩, cell)

def Element.slots : Element → List (Slot × Cell)
  | .row content => content.slots false
  | .marker _ => []

/-- All cells of a partition with their slots, those of the static row first. -/
def Partition.slots (partition : Partition) : List (Slot × Cell) :=
  (partition.staticRow.elim [] fun row => row.slots true) ++
    partition.elements.flatMap Element.slots

/-- The newest cell of each slot. -/
abbrev Winners := Std.TreeMap Slot Cell

namespace Winners

/-- Merges a cell in; at equal write times the first one stays. -/
def merge (winners : Winners) (slot : Slot) (cell : Cell) : Winners :=
  winners.insert slot (Cells.winner winners[slot]? cell)

def mergeAll (winners : Winners) (slots : List (Slot × Cell)) : Winners :=
  slots.foldl (fun winners (slot, cell) => winners.merge slot cell) winners

end Winners

/-- A live cell as it is read. -/
structure CellView where
  slot : Slot
  value : Bytes
  timestamp : Int64
  deriving DecidableEq, Inhabited

/-- The latest time at which one of the partitions was deleted. -/
def deletedAt (sources : List Partition) : Option Int64 :=
  (sources.filter fun source => !source.deletion.isLive).foldl
    (fun latest source =>
      some (latest.elim source.deletion.markedAt (max · source.deletion.markedAt))) none

/-- A cell is shown if it has a value and was written after the last deletion. -/
def CellView.of? (deletedAt : Option Int64) (slot : Slot) (cell : Cell) : Option CellView :=
  if deletedAt.all (· < cell.timestamp) then
    cell.value.map fun value => ⟨slot, value, cell.timestamp⟩
  else none

/-- The live cells in partitions of one key, the oldest source first. -/
def mergedCells (sources : List Partition) : List CellView :=
  let winners := Winners.mergeAll ∅ (sources.flatMap Partition.slots)
  winners.toList.filterMap fun (slot, cell) => CellView.of? (deletedAt sources) slot cell

/-- What a flush of a session wrote. -/
structure FlushSummary where
  table : String
  partitions : UInt64
  cells : UInt64
  deriving DecidableEq, Inhabited

/-- The buffer, the open tables, the oldest first, and the counters of generations and times. -/
structure Session where
  settings : Settings
  memtable : Memtable := {}
  tables : List Reader
  nextGeneration : UInt64
  lastTimestamp : Int64 := 0
  deriving Inhabited

namespace Session

/-- Opens the table of a descriptor. -/
def openTable (disk : Disk) (descriptor : Descriptor) : Except SessionError Reader :=
  (Reader.load disk descriptor).mapError (.ofTable (.opening descriptor.render))

/-- Opens every committed table of a folder. -/
def ofDisk (settings : Settings) (disk : Disk) : Except SessionError Session := do
  let names ← (disk.names settings.dataDir).mapError .listing
  let tables ← (Descriptor.committed settings.dataDir names).mapM (openTable disk)
  let nextGeneration ← (Descriptor.nextGeneration names).mapError .overflow
  pure { settings, tables, nextGeneration }

/-- Opens a session on the folder of valid settings, which is created if need be. -/
def start (settings : Settings) (store : Store) : Except SessionError Session × Store :=
  match settings.validate with
  | .error cause => (.error (.settings cause), store)
  | .ok () =>
      match store.createFolders settings.dataDir with
      | (some cause, store) => (.error (.creating settings.dataDir cause), store)
      | (none, store) => (ofDisk settings store.disk, store)

/-- The time of the next write, by a reading of the clock in microseconds: above the last one. -/
def nextTimestamp (session : Session) (now : Int64) : Int64 :=
  -- a clock that counts from 1970 never comes near the greatest number, so this sum is not checked
  max now (session.lastTimestamp + 1)

/-- Writes a cell of the row without a clustering. -/
def put (session : Session) (now : Int64) (key : Key) (column : String) (value : Bytes) : Session :=
  let timestamp := session.nextTimestamp now
  { session with
    lastTimestamp := timestamp
    memtable := session.memtable.put key [] ⟨column, timestamp, some value⟩ }

/-- Writes a cell of the static row. -/
def putStatic (session : Session) (now : Int64) (key : Key) (column : String) (value : Bytes) :
    Session :=
  let timestamp := session.nextTimestamp now
  { session with
    lastTimestamp := timestamp
    memtable := session.memtable.putStatic key ⟨column, timestamp, some value⟩ }

/-- The server time in seconds of a write time in microseconds, within its range. -/
def secondsOf (timestamp : Int64) : Int32 :=
  Int32.ofInt (min (max (timestamp / 1000000).toInt 0) Int32.maxValue.toInt)

/-- Deletes a partition. -/
def delete (session : Session) (now : Int64) (key : Key) : Session :=
  let timestamp := session.nextTimestamp now
  { session with
    lastTimestamp := timestamp
    memtable := session.memtable.deletePartition key ⟨timestamp, secondsOf timestamp⟩ }

/-- The plan for a table with the contents of the buffer. -/
def flushPlan (session : Session) (medium : Medium) : Except TableError WriterPlan :=
  (Descriptor.ofSettings session.settings session.nextGeneration).map fun descriptor =>
    { descriptor, settings := session.settings, observers := 1, medium }

/-- The session after the buffer became a table; without a further generation the buffer stays. -/
def advance (session : Session) (table : Reader) : Option Overflow × Session :=
  let session := { session with tables := session.tables ++ [table] }
  match exactSum session.nextGeneration 1 with
  | .error cause => (some cause, session)
  | .ok next => (none, { session with nextGeneration := next, memtable := {} })

/-- Writes the buffer, unless it is empty, to a new table, which becomes the newest of the session. -/
def flush (session : Session) (medium : Medium) (store : Store) :
    Except SessionError (Option FlushSummary) × Session × Store :=
  if session.memtable.isEmpty then (.ok none, session, store)
  else
    match session.flushPlan medium with
    | .error error => (.error (.ofTable .table error), session, store)
    | .ok plan =>
        let told := store.deliveries.length
        match session.memtable.flush plan store with
        | (.error error, store) => (.error (.ofTable .table error), session, store)
        | (.ok reader, store) =>
            let count := ((store.deliveries.drop told).map Prod.snd).foldl FlushCount.observe {}
            let summary := ⟨reader.descriptor.render, count.partitions, count.cells⟩
            match session.advance reader with
            | (some cause, session) => (.error (.overflow cause), session, store)
            | (none, session) => (.ok (some summary), session, store)

/-- The partitions of a key, the oldest source first. -/
def sources (session : Session) (disk : Disk) (key : Key) :
    Except SessionError (List Partition) := do
  let stored ← session.tables.mapM fun table => (table.partition? disk key).mapError (.ofTable .table)
  pure (stored.filterMap id ++ (session.memtable.partition? key).toList)

/-- The live cells of a key, those of rows first. -/
def get (session : Session) (disk : Disk) (key : Key) : Except SessionError (List CellView) :=
  (session.sources disk key).map mergedCells

/-- What the filter of each table says about a key. -/
def probe (session : Session) (key : Key) : List (String × Bool) :=
  session.tables.map fun table => (table.descriptor.render, table.mayContain key)

/-- Every key of the session, in order. -/
def keys (session : Session) : List Key :=
  (Std.TreeSet.ofList
    (session.tables.flatMap Reader.keys ++ session.memtable.toList.map Partition.key)).toList

/-- A table in the statistics of a session. -/
def tableLine (table : Reader) : String :=
  let statistics := table.statistics
  s!"  {table.descriptor.render}: {statistics.partitions} partitions, {statistics.rows} rows, " ++
    s!"{statistics.cells} cells, {statistics.tombstones} tombstones, " ++
    s!"filter {table.filter.byteSize} bytes\n"

/-- The statistics of a session, a line for the buffer and one for each table. -/
def render (session : Session) : String :=
  s!"memtable: {session.memtable.size} partitions, ~{session.memtable.approxSize} bytes\n" ++
    s!"tables: {session.tables.length}\n" ++ String.join (session.tables.map tableLine)

end Session

end SortedTable

import SortedTable.Session
import SortedTable.Text.Lossy
import SortedTable.Tool.Command

namespace SortedTable.Tool

/-- How the tool ended: its exit code, and the report of its error, if there is one. -/
structure Ending where
  code : UInt8
  report : String
  deriving DecidableEq, Inhabited

def Ending.success : Ending := ⟨0, ""⟩

/-- The tool ends with an error, or crashes without a report. -/
def Ending.ofError (error : SessionError) : Ending :=
  match error with
  | .overflow _ => ⟨101, ""⟩
  | _ => ⟨1, "Error: " ++ error.report⟩

/-- What the tool prints when it waits for a line. -/
def prompt : String := "> "

/-- A text on a line of its own. -/
def line (text : String) : String := text ++ "\n"

/-- The first lines of a session. -/
def greeting (session : Session) : String :=
  line (s!"sstable-tool started (dir={session.settings.dataDir}, " ++
    s!"version={session.settings.formatVersion}, tables={session.tables.length})") ++
  line "Commands: PUT key column value | STATIC key column value | DEL key | GET key" ++
  line "          PROBE key | KEYS | FLUSH | STATS | EXIT" ++ prompt

/-- Opens a session with the settings that the variables name. -/
def start (lookup : String → Option String) (store : Store) : Except Ending Session × Store :=
  match Settings.fromLookup lookup with
  | .error cause => (.error (.ofError (.settings cause)), store)
  | .ok settings =>
      let (session, store) := Session.start settings store
      (session.mapError .ofError, store)

/-- The answer to a flush. -/
def flushAnswer : Except SessionError (Option FlushSummary) → String
  | .ok (some summary) =>
      line s!"OK {summary.table} ({summary.partitions} partitions, {summary.cells} cells)"
  | .ok none => line "OK (nothing to flush)"
  | .error error => line s!"ERR flush failed: {error.message}"

/-- A cell in the answer to a read. -/
def cellLine (cell : CellView) : String :=
  let mark := if cell.slot.isStatic then "static " else ""
  line s!"{mark}{cell.slot.column} = {Text.lossy cell.value}"

/-- The answer to a read. -/
def getAnswer : Except SessionError (List CellView) → String
  | .ok [] => line "(nil)"
  | .ok cells => String.join (cells.map cellLine)
  | .error error => line s!"ERR read failed: {error.message}"

/-- The answer of a table's filter. -/
def probeLine (answer : String × Bool) : String :=
  line (answer.1 ++ " -> " ++ if answer.2 then "maybe" else "absent")

def probeAnswer : List (String × Bool) → String
  | [] => line "(no tables)"
  | answers => String.join (answers.map probeLine)

def keysAnswer (keys : List Key) : String :=
  String.join (keys.map fun key => line (Text.lossy key.bytes)) ++ line s!"({keys.length} keys)"

/-- What a command answers, the session that goes on or how the tool ends, and what it leaves. -/
structure Reply where
  answer : String
  next : Except Ending Session
  store : Store
  deriving Inhabited

/-- The answer to a result, after which the session goes on. An overflow ends the tool at once. -/
def Reply.ofResult {α : Type} (answer : Except SessionError α → String)
    (result : Except SessionError α) (session : Session) (store : Store) : Reply :=
  match result with
  | .error (.overflow cause) => ⟨"", .error (.ofError (.overflow cause)), store⟩
  | result => ⟨answer result, .ok session, store⟩

/-- The reply to a flush. -/
def Reply.ofFlush (medium : Medium) (session : Session) (store : Store) : Reply :=
  let (result, session, store) := session.flush medium store
  .ofResult flushAnswer result session store

/-- Takes leave after a reply with which the session goes on. -/
def Reply.leaving (reply : Reply) : Reply :=
  match reply.next with
  | .ok _ => { reply with answer := reply.answer ++ line "bye", next := .error .success }
  | .error _ => reply

def keyOfText (text : String) : Key := .ofBytes (Bytes.ofText text)

/-- Carries out a command at a reading of the clock. -/
def obey (medium : Medium) (session : Session) (now : Int64) (store : Store) : Command → Reply
  | .put key column value =>
      ⟨line "OK", .ok (session.put now (keyOfText key) column (Bytes.ofText value)), store⟩
  | .putStatic key column value =>
      ⟨line "OK", .ok (session.putStatic now (keyOfText key) column (Bytes.ofText value)), store⟩
  | .delete key => ⟨line "OK", .ok (session.delete now (keyOfText key)), store⟩
  | .get key => .ofResult getAnswer (session.get store.disk (keyOfText key)) session store
  | .probe key => ⟨probeAnswer (session.probe (keyOfText key)), .ok session, store⟩
  | .keys => ⟨keysAnswer session.keys, .ok session, store⟩
  | .statistics => ⟨session.render, .ok session, store⟩
  | .flush => .ofFlush medium session store
  | .exit => (Reply.ofFlush medium session store).leaving
  | .nothing => ⟨"", .ok session, store⟩
  | .incomplete name => ⟨line s!"ERR usage: {name.usage}", .ok session, store⟩
  | .unknown name => ⟨line s!"unknown command: {name}", .ok session, store⟩

/-- Answers a line of text and, if the tool goes on, waits for the next one. -/
def answerText (medium : Medium) (session : Session) (now : Int64) (text : String) (store : Store) :
    Reply :=
  let reply := obey medium session now store (Command.ofLine text)
  match reply.next with
  | .ok _ => { reply with answer := reply.answer ++ prompt }
  | .error _ => reply

/-- What remains to do when the input ends without a command to exit. -/
def finish (medium : Medium) (session : Session) (store : Store) : Ending × Store :=
  match session.flush medium store with
  | (.ok _, _, store) => (.success, store)
  | (.error error, _, store) => (.ofError error, store)

/-- How the tool ends when a line is not UTF-8. -/
def invalidLine : Ending := ⟨1, "Error: " ++ IoError.message .invalidText⟩

/-- A line without the characters that end it. -/
def withoutEnd (line : Bytes) : Bytes :=
  match line.reverse with
  | 10 :: 13 :: rest => rest.reverse
  | 10 :: rest => rest.reverse
  | _ => line

/-- Answers the bytes of a line; bytes that are no text end the tool at once. -/
def answerLine (medium : Medium) (session : Session) (now : Int64) (bytes : Bytes) (store : Store) :
    Reply :=
  match Bytes.text? (withoutEnd bytes) with
  | none => ⟨"", .error invalidLine, store⟩
  | some text => answerText medium session now text store

/-- Cuts bytes into lines, each with its end; `current` holds an open line in reverse. -/
def linesAfter : Bytes → Bytes → List Bytes
  | [], current => if current.isEmpty then [] else [current.reverse]
  | byte :: rest, current =>
      if byte = 10 then (byte :: current).reverse :: linesAfter rest []
      else linesAfter rest (byte :: current)

/-- The lines of an input with their ends. -/
def lines (input : Bytes) : List Bytes := linesAfter input []

/-- What a run of the tool printed and how it ended. -/
structure Run where
  output : String
  ending : Ending
  deriving DecidableEq, Inhabited

/-- Answers lines, the first of them at the `reading`-th reading of the clock. -/
def answerAll (medium : Medium) (clock : Nat → Int64) :
    Nat → List Bytes → Session → Store → String → Run × Store
  | _, [], session, store, output =>
      let (ending, store) := finish medium session store
      (⟨output, ending⟩, store)
  | reading, bytes :: rest, session, store, output =>
      let reply := answerLine medium session (clock reading) bytes store
      let output := output ++ reply.answer
      match reply.next with
      | .ok session => answerAll medium clock (reading + 1) rest session reply.store output
      | .error ending => (⟨output, ending⟩, reply.store)

/-- Runs the tool on a whole input. -/
def run (medium : Medium) (clock : Nat → Int64) (lookup : String → Option String) (input : Bytes)
    (store : Store) : Run × Store :=
  match start lookup store with
  | (.error ending, store) => (⟨"", ending⟩, store)
  | (.ok session, store) =>
      answerAll medium clock 0 (lines input) session store (greeting session)

end SortedTable.Tool

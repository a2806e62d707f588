import Std.Time.DateTime.Timestamp
import SortedTable.Tool.Basic

namespace SortedTable.Tool

/-- Where the paths of a disk begin in the file system. -/
def rootOf (directory : String) : String := if directory.startsWith "/" then "/" else "./"

/-- A path below a root as the file system takes it. -/
def placeOf (root : String) (path : Path) : String := root ++ "/".intercalate path

def bytesOf (content : ByteArray) : Bytes := content.toList

def contentOf (bytes : Bytes) : ByteArray := ⟨bytes.toArray⟩

/-- Adds what the file system has at a path, unless it is there already. -/
def loadNode (root : String) (disk : Disk) (path : Path) : IO Disk := do
  let place := (← IO.currentDir) / placeOf root path
  if (disk.node? path).isSome then pure disk
  else if ← place.isDir then
    pure (disk.apply (.createFolder path))
  else if ← place.pathExists then
    let id := disk.contents.size
    let content ← IO.FS.readBinFile place
    pure (disk.applyAll [.create path id, .write id 0 (bytesOf content)])
  else pure disk

/-- Loads what a text leads through, and the folder at its end with its names in order. -/
def loadDisk (directory : String) : IO Disk := do
  let root := rootOf directory
  let (disk, folder) ← (Path.steps directory).foldlM (fun (disk, path) step => do
    let path := Path.follow path step
    pure (← loadNode root disk path, path)) (.empty, [])
  let place := (← IO.currentDir) / placeOf root folder
  if ← place.isDir then
    let entries ← place.readDir
    entries.toList.reverse.foldlM
      (fun disk entry => loadNode root disk (folder ++ [entry.fileName])) disk
  else pure disk

/-- The path at which a file lies. -/
def pathOf (disk : Disk) (id : FileId) : Path :=
  ((disk.entries.find? fun entry => entry.2 = .file id).map Prod.fst).getD []

/-- The files that are open for writing. -/
abbrev OpenFiles := List (FileId × IO.FS.Handle)

/-- Opens a file anew and gives it a content. -/
def refill (root : String) (path : Path) (id : FileId) (bytes : Bytes) (files : OpenFiles) :
    IO OpenFiles := do
  let handle ← IO.FS.Handle.mk (placeOf root path) .write
  handle.write (contentOf bytes)
  handle.flush
  pure ((id, handle) :: files.filter (·.1 != id))

/-- Makes a change of a disk in the file system. Bytes at the end of an open file are added to it. -/
def realize (root : String) (disk : Disk) (files : OpenFiles) : Change → IO OpenFiles
  | .createFolder path => do
      IO.FS.createDir (placeOf root path)
      pure files
  | .create path id => refill root path id [] files
  | .truncate id length =>
      refill root (pathOf disk id) id (Disk.resized (disk.content id) length) files
  | .write id offset bytes =>
      match files.lookup id with
      | some handle => do
          if offset = (disk.content id).length then
            handle.write (contentOf bytes)
            handle.flush
            pure files
          else refill root (pathOf disk id) id (Disk.overwrite (disk.content id) offset bytes) files
      | none => refill root (pathOf disk id) id (Disk.overwrite (disk.content id) offset bytes) files
  | .rename source target => do
      IO.FS.rename (placeOf root source) (placeOf root target)
      pure files
  | .remove path => do
      IO.FS.removeFile (placeOf root path)
      pure files

/-- Makes the recorded changes of a store in the file system; the disk is the one before them. -/
def settle (root : String) (disk : Disk) (store : Store) : IO Store := do
  let _ ← store.changes.foldlM (fun (disk, files) change => do
    pure (Disk.apply disk change, ← realize root disk files change)) (disk, [])
  pure store.settled

/-- The clock in microseconds; it does not show times before its zero. -/
def readClock : IO Int64 := do
  let now ← Std.Time.Timestamp.now
  pure (Int64.ofInt (max 0 (now.toNanosecondsSinceUnixEpoch.val / 1000)))

/-- Reads bytes up to the end of a line; at the end of the input there are none. -/
partial def readLine (input : IO.FS.Stream) (reversed : Bytes) : IO Bytes := do
  match bytesOf (← input.read 1) with
  | [] => pure reversed.reverse
  | byte :: _ =>
      if byte = 10 then pure (byte :: reversed).reverse else readLine input (byte :: reversed)

/-- Answers line after line. -/
partial def converse (root : String) (input output : IO.FS.Stream) (session : Session)
    (store : Store) : IO Ending := do
  let bytes ← readLine input []
  if bytes.isEmpty then
    let (ending, after) := finish .sound session store
    let _ ← settle root store.disk after
    pure ending
  else
    let reply := answerLine .sound session (← readClock) bytes store
    let settled ← settle root store.disk reply.store
    output.putStr reply.answer
    output.flush
    match reply.next with
    | .ok session => converse root input output session settled
    | .error ending => pure ending

/-- Runs the tool with the variables of the process. -/
def serve : IO Ending := do
  let values ← Variable.all.mapM fun source => do
    pure (source.name, ← IO.getEnv source.name)
  let lookup (name : String) : Option String := (values.lookup name).join
  let directory := (Settings.fromLookup lookup).toOption.elim "" Settings.dataDir
  let disk ← loadDisk directory
  match start lookup ⟨disk, []⟩ with
  | (.error ending, _) => pure ending
  | (.ok session, store) =>
      let root := rootOf directory
      let settled ← settle root disk store
      let output ← IO.getStdout
      output.putStr (greeting session)
      output.flush
      converse root (← IO.getStdin) output session settled

end SortedTable.Tool

def main : IO UInt32 := do
  let ending ← try SortedTable.Tool.serve catch failure => pure ⟨1, s!"Error: {failure}"⟩
  if !ending.report.isEmpty then IO.eprintln ending.report
  pure ending.code.toUInt32

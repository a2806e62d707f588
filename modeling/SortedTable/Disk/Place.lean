import SortedTable.Disk
import SortedTable.IoError

namespace SortedTable.Disk

/-- Fails for a reason that the operating system reports. -/
def refuse {α : Type} (fault : SystemFault) : Except IoError α := .error (.system fault)

/-- What a name in a folder stands for, if for anything. -/
def lookup (disk : Disk) (folder : Path) (name : String) : Except IoError (Option Node) :=
  if Path.maxNameBytes < name.utf8ByteSize then refuse .nameTooLong
  else .ok (disk.node? (folder ++ [name]))

/-- The folder that steps lead to from a folder. Every name on the way must be that of a folder. -/
def enter (disk : Disk) (folder : Path) : List String → Except IoError Path
  | [] => .ok folder
  | step :: rest =>
      if Path.isDots step then disk.enter (folder.follow step) rest
      else do
        match ← disk.lookup folder step with
        | some .folder => disk.enter (folder.follow step) rest
        | some (.file _) => refuse .notFolder
        | none => refuse .notFound

/-- Where a text leads. -/
inductive Place where
  /-- To a folder that is there, by dots at the end of the text. -/
  | folder (path : Path)
  /-- To a name in a folder that is there; `closed` if a slash stands behind the name. -/
  | entry (folder : Path) (name : String) (closed : Bool)

/-- Follows all steps of a text but looks no name up at its end. -/
def place (disk : Disk) (text : String) : Except IoError Place :=
  if text.toList.contains '\x00' then .error .zeroInPath
  else if text.isEmpty then refuse .notFound
  else if Path.maxTextBytes < text.utf8ByteSize then refuse .nameTooLong
  else
    match (Path.steps text).reverse with
    | [] => .ok (.folder [])
    | last :: before => do
        let folder ← disk.enter [] before.reverse
        if Path.isDots last then pure (.folder (folder.follow last))
        else pure (.entry folder last (text.toList.getLast? = some '/'))

/-- What a text names, with its path. Only a folder may have a slash behind its name. -/
def locate (disk : Disk) (text : String) : Except IoError (Path × Node) := do
  match ← disk.place text with
  | .folder path => pure (path, .folder)
  | .entry folder name closed =>
      match ← disk.lookup folder name with
      | none => refuse .notFound
      | some .folder => pure (folder ++ [name], .folder)
      | some (.file id) => if closed then refuse .notFolder else pure (folder ++ [name], .file id)

/-- What can be opened by a text. -/
def find (disk : Disk) (text : String) : Except IoError Node :=
  (disk.locate text).map Prod.snd

/-- Whether a text names anything. -/
def exists? (disk : Disk) (text : String) : Bool := (disk.find text).toOption.isSome

/-- The bytes of an open file; a folder opens but has none. -/
def read (disk : Disk) : Node → Except IoError Bytes
  | .folder => refuse .isFolder
  | .file id => .ok (disk.content id)

/-- The entry of a folder: its name, if the path lies directly in the folder. -/
def nameIn? (folder path : Path) : Option String :=
  if path.dropLast = folder then path.getLast? else none

/-- The names in a folder, the newest first. -/
def names (disk : Disk) (text : String) : Except IoError (List String) := do
  match ← disk.locate text with
  | (_, .file _) => refuse .notFolder
  | (folder, .folder) => pure (disk.entries.filterMap fun entry => nameIn? folder entry.1)

end SortedTable.Disk

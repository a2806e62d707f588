import SortedTable.Disk.Place

namespace SortedTable.Disk

/-- Creates a folder in a folder that is there. -/
def createFolder (disk : Disk) (text : String) : Except IoError (List Change) := do
  match ← disk.place text with
  | .folder _ => refuse .alreadyExists
  | .entry folder name _ =>
      match ← disk.lookup folder name with
      | some _ => refuse .alreadyExists
      | none => pure [.createFolder (folder ++ [name])]

/-- Creates a folder unless it is there. -/
def ensureFolder (disk : Disk) (text : String) : Except IoError (List Change) :=
  match disk.createFolder text with
  | .error (.system .alreadyExists) =>
      if disk.find text matches .ok .folder then .ok [] else refuse .alreadyExists
  | result => result

/-- Creates the first of some folders, each of which lies in the next one, and the others if it must. -/
def ensureFirst (disk : Disk) : List String → List Change × Option IoError
  | [] => ([], none)
  | text :: above =>
      match disk.ensureFolder text with
      | .ok changes => (changes, none)
      | .error (.system .notFound) =>
          match disk.ensureFirst above with
          | (changes, some cause) => (changes, some cause)
          | (changes, none) =>
              match (disk.applyAll changes).ensureFolder text with
              | .ok further => (changes ++ further, none)
              -- the folders above stay
              | .error cause => (changes, some cause)
      | .error cause => ([], some cause)

/-- Creates a folder with the folders above it. The empty text asks for none. -/
def createFolders (disk : Disk) (text : String) : List Change × Option IoError :=
  disk.ensureFirst (Path.folders text)

/-- Opens a file for writing, new or emptied. -/
def create (disk : Disk) (text : String) : Except IoError (FileId × List Change) := do
  match ← disk.place text with
  | .folder _ | .entry _ _ true => refuse .isFolder
  | .entry folder name false =>
      match ← disk.lookup folder name with
      | some .folder => refuse .isFolder
      | some (.file id) => pure (id, [.truncate id 0])
      | none => pure (disk.contents.size, [.create (folder ++ [name]) disk.contents.size])

/-- Whether anything lies below a path. -/
def hasEntriesBelow (disk : Disk) (path : Path) : Bool :=
  disk.entries.any fun entry => path.isPrefixOf entry.1 && entry.1 != path

/-- A file takes the place of a file, and a folder that of an empty folder. -/
def replacing (disk : Disk) (source target : Path) : Node → Option Node → Except IoError (List Change)
  | .file _, some .folder => refuse .isFolder
  | .folder, some (.file _) => refuse .notFolder
  | .folder, some .folder =>
      if disk.hasEntriesBelow target then refuse .folderNotEmpty else .ok [.rename source target]
  | _, _ => .ok [.rename source target]

/-- Gives what is at `source` the name `target`. -/
def rename (disk : Disk) (source target : String) : Except IoError (List Change) := do
  match ← disk.place source, ← disk.place target with
  | .entry sourceFolder sourceName sourceClosed, .entry targetFolder targetName targetClosed =>
      let some node ← disk.lookup sourceFolder sourceName | refuse .notFound
      let found ← disk.lookup targetFolder targetName
      let source := sourceFolder ++ [sourceName]
      let target := targetFolder ++ [targetName]
      if node != .folder && (sourceClosed || targetClosed) then refuse .notFolder
      else if source = target then pure []
      else if source.isPrefixOf target then refuse .invalidArgument
      else if target.isPrefixOf source then refuse .folderNotEmpty
      else disk.replacing source target node found
  | _, _ => refuse .busy

/-- Removes a file. -/
def remove (disk : Disk) (text : String) : Except IoError (List Change) := do
  match ← disk.place text with
  | .folder _ => refuse .isFolder
  | .entry folder name closed =>
      match ← disk.lookup folder name with
      | none => refuse .notFound
      | some .folder => refuse .isFolder
      | some (.file _) => if closed then refuse .notFolder else pure [.remove (folder ++ [name])]

/-- Replaces the bytes of a file, which is created if need be. -/
def replace (disk : Disk) (text : String) (bytes : Bytes) : Except IoError (List Change) :=
  (disk.create text).map fun (id, changes) => changes ++ [.write id 0 bytes]

/-- Copies the bytes of a file to another, which is created or emptied before they are read. -/
def copy (disk : Disk) (source target : String) : Except IoError (List Change) := do
  match ← disk.find source with
  | .folder => refuse .invalidArgument
  | .file id =>
      let (copy, changes) ← disk.create target
      pure (changes ++ [.write copy 0 ((disk.applyAll changes).content id)])

end SortedTable.Disk

import SortedTable.Bytes
import SortedTable.Path

namespace SortedTable

/-- The identity of a file. -/
abbrev FileId := Nat

/-- What stands at a path. -/
inductive Node where
  | folder
  | file (id : FileId)
  deriving DecidableEq, Repr, Inhabited

/-- One change of a disk. -/
inductive Change where
  | createFolder (path : Path)
  /-- A new, empty file. -/
  | create (path : Path) (id : FileId)
  | truncate (id : FileId) (length : Nat)
  | write (id : FileId) (offset : Nat) (bytes : Bytes)
  | rename (source target : Path)
  | remove (path : Path)
  deriving DecidableEq, Repr

/-- The entries below the current folder, the newest first, and the bytes of each file. -/
structure Disk where
  entries : List (Path × Node)
  contents : Array Bytes
  bounded : ∀ path (id : Nat), (path, Node.file id) ∈ entries → id < contents.size
  deriving DecidableEq

namespace Disk

/-- A disk with nothing but the current folder. -/
def empty : Disk := ⟨[], #[], by simp⟩

instance : Inhabited Disk := ⟨empty⟩

/-- What is at a path. The current folder and those above it are always there. -/
def node? (disk : Disk) (path : Path) : Option Node :=
  if path.all (· = Path.up) then some .folder else disk.entries.lookup path

/-- The bytes of a file. -/
def content (disk : Disk) (id : FileId) : Bytes := disk.contents.getD id []

/-- Bytes written over others at an offset; a gap is filled with zeros. -/
def overwrite (content : Bytes) (offset : Nat) (bytes : Bytes) : Bytes :=
  let front := content.take offset
  front ++ List.replicate (offset - front.length) 0 ++ bytes ++
    content.drop (offset + bytes.length)

/-- The first bytes of a file; a shorter file grows by zeros. -/
def resized (content : Bytes) (length : Nat) : Bytes :=
  let front := content.take length
  front ++ List.replicate (length - front.length) 0

/-- The entries after a folder or file and all below it got another path. -/
def moved (entries : List (Path × Node)) (source target : Path) : List (Path × Node) :=
  (entries.filterMap fun (path, node) =>
    if source.isPrefixOf path then some (target ++ path.drop source.length, node) else none) ++
  entries.filter fun (path, _) => !source.isPrefixOf path && path != target

theorem mem_moved {entries : List (Path × Node)} {source target path : Path} {node : Node}
    (member : (path, node) ∈ moved entries source target) : ∃ old, (old, node) ∈ entries := by
  rcases List.mem_append.1 member with member | member
  · obtain ⟨⟨old, found⟩, present, same⟩ := List.mem_filterMap.1 member
    dsimp only at same
    split at same <;> cases same
    exact ⟨old, present⟩
  · exact ⟨path, (List.mem_filter.1 member).1⟩

def apply (disk : Disk) : Change → Disk
  | .createFolder path =>
      { disk with
        entries := (path, .folder) :: disk.entries
        bounded := by simpa using disk.bounded }
  | .create path id =>
      { entries := (path, .file id) :: disk.entries
        contents := disk.contents ++ Array.replicate (id + 1 - disk.contents.size) []
        bounded := by
          intro other file member
          rw [Array.size_append, Array.size_replicate]
          rcases List.mem_cons.1 member with same | member
          · cases same
            omega
          · have := disk.bounded other file member
            omega }
  | .truncate id length =>
      { disk with
        contents := disk.contents.modify id (resized · length)
        bounded := by simpa using disk.bounded }
  | .write id offset bytes =>
      { disk with
        contents := disk.contents.modify id (overwrite · offset bytes)
        bounded := by simpa using disk.bounded }
  | .rename source target =>
      { disk with
        entries := moved disk.entries source target
        bounded := by
          intro path id member
          obtain ⟨old, present⟩ := mem_moved member
          exact disk.bounded old id present }
  | .remove path =>
      { disk with
        entries := disk.entries.filter fun entry => entry.1 != path
        bounded := by
          intro other id member
          exact disk.bounded other id (List.mem_filter.1 member).1 }

/-- The disk after changes in order. -/
def applyAll (disk : Disk) (changes : List Change) : Disk := changes.foldl apply disk

end Disk

end SortedTable

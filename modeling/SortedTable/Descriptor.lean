import SortedTable.Component
import SortedTable.Path
import SortedTable.TableError
import SortedTable.Text.Numeral
import SortedTable.Version

namespace SortedTable

/-- A table by its folder, its generation and its version. -/
structure Descriptor where
  directory : String
  generation : UInt64
  version : Version
  deriving DecidableEq, Inhabited

/-- What stands before the name of a file that is still being written. -/
def temporaryMark : String := "tmp-"

/-- The layout that all tables share. -/
def layoutName : String := "big"

/-- Cuts at the first dash, which belongs to neither part. -/
def cutAtDash : List Char → Option (List Char × List Char)
  | [] => none
  | character :: rest =>
      if character = '-' then some ([], rest)
      else (cutAtDash rest).map fun (front, back) => (character :: front, back)

theorem eq_of_cutAtDash {characters front back : List Char}
    (cut : cutAtDash characters = some (front, back)) : characters = front ++ '-' :: back := by
  induction characters generalizing front with
  | nil => cases cut
  | cons character rest ih =>
      unfold cutAtDash at cut
      split at cut
      · cases cut
        simp [*]
      · obtain ⟨⟨front, back⟩, found, same⟩ := Option.map_eq_some_iff.1 cut
        cases same
        simp [ih found]

/-- A name without the mark of unfinished files, if it has the mark. -/
def withoutMark? (name : String) : Option String :=
  if temporaryMark.toList.isPrefixOf name.toList then
    some (String.ofList (name.toList.drop temporaryMark.length))
  else none

namespace Descriptor

/-- The descriptor of a generation in the folder and the version that the settings name. -/
def ofSettings (settings : Settings) (generation : UInt64) : Except TableError Descriptor :=
  match Version.ofName? settings.formatVersion with
  | some version => .ok ⟨settings.dataDir, generation, version⟩
  | none => .error (.unsupportedVersion settings.formatVersion)

/-- What the names of all files of a table begin with. -/
def stem (descriptor : Descriptor) : String :=
  s!"{descriptor.version.name}-{descriptor.generation}-{layoutName}"

/-- A table in words: its folder and its stem. -/
def render (descriptor : Descriptor) : String := s!"{descriptor.directory}/{descriptor.stem}"

/-- A table in words, field by field. -/
def describe (descriptor : Descriptor) : String :=
  s!"Descriptor \x7b directory: {Text.quote descriptor.directory}, " ++
    s!"generation: {descriptor.generation}, version: {descriptor.version.label} \x7d"

/-- The final name of a component's file. -/
def fileName (descriptor : Descriptor) (component : Component) : String :=
  s!"{descriptor.stem}-{component.fileName}"

/-- The name of a component's file while it is being written. -/
def temporaryName (descriptor : Descriptor) (component : Component) : String :=
  temporaryMark ++ descriptor.fileName component

def finalPath (descriptor : Descriptor) (component : Component) : String :=
  Path.joinText descriptor.directory (descriptor.fileName component)

def temporaryPath (descriptor : Descriptor) (component : Component) : String :=
  Path.joinText descriptor.directory (descriptor.temporaryName component)

/-- The table and the component that a final name belongs to. -/
def ofFileName? (directory name : String) : Option (Descriptor × Component) := do
  if (withoutMark? name).isSome then none
  else
    let (version, rest) ← cutAtDash name.toList
    let (generation, rest) ← cutAtDash rest
    let (layout, component) ← cutAtDash rest
    let version ← Version.ofName? (String.ofList version)
    let generation ← (Text.readWord64 (String.ofList generation)).toOption
    if String.ofList layout = layoutName then
      let component ← Component.ofFileName? (String.ofList component)
      pure (⟨directory, generation, version⟩, component)
    else none

/-- The committed tables among the names of a folder, by generation and else in the order of the
names. -/
def committed (directory : String) (names : List String) : List Descriptor :=
  (names.filterMap fun name =>
    match ofFileName? directory name with
    | some (descriptor, .contents) => some descriptor
    | _ => none).mergeSort fun left right => left.generation ≤ right.generation

/-- The generation that a name belongs to, whether its file is finished or not. -/
def generationOf? (name : String) : Option UInt64 :=
  (ofFileName? "" ((withoutMark? name).getD name)).map fun found => found.1.generation

/-- The generation behind the highest one among the files of a folder. -/
def nextGeneration (names : List String) : Except Overflow UInt64 :=
  exactSum ((names.filterMap generationOf?).foldl max 0) 1

end Descriptor

end SortedTable

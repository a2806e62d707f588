import SortedTable.Text.Blank

namespace SortedTable

/-- The names from the current folder downwards, or two dots for each level above it. -/
abbrev Path := List String

namespace Path

/-- The step to the folder itself. -/
def stay : String := "."

/-- The step to the folder above. -/
def up : String := ".."

/-- Whether a step is no name but dots. -/
def isDots (step : String) : Bool := step = stay || step = up

/-- The folder above. -/
def above (path : Path) : Path := if path.all (· = up) then up :: path else path.dropLast

/-- The path after a step. -/
def follow (path : Path) (step : String) : Path :=
  if step = stay then path else if step = up then path.above else path ++ [step]

theorem above_follow {name : String} (path : Path) (proper : isDots name = false) :
    (path.follow name).above = path := by
  simp only [isDots, Bool.or_eq_false_iff, decide_eq_false_iff_not] at proper
  simp [follow, above, proper.1, proper.2]

/-- The steps of a text, which stand between slashes. -/
def steps (text : String) : List String := Text.runs (· == '/') text

/-- The text of a path to a name in a folder. -/
def joinText (directory name : String) : String :=
  if directory.isEmpty || directory.toList.getLast? = some '/' then directory ++ name
  else directory ++ "/" ++ name

/-- The greatest text of a path, in bytes. -/
def maxTextBytes : Nat := 4095

/-- The greatest name, in bytes. -/
def maxNameBytes : Nat := 255

/-- The front parts of a text that end in a step; only the very first can be a single dot. -/
def fronts : List String → List (List String)
  | [] => []
  | part :: rest =>
      if part.isEmpty || part = stay && !rest.isEmpty then fronts rest
      else (part :: rest) :: fronts rest

/-- A text and the texts of the folders above it, the innermost first. -/
def folders (text : String) : List String :=
  match fronts ((text.toList.splitOn '/').map String.ofList).reverse with
  | [] => []
  | _ :: further => text :: further.map fun parts => "/".intercalate parts.reverse

end Path

end SortedTable

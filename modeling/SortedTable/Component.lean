namespace SortedTable

inductive Component where
  | data
  | index
  | filter
  | statistics
  | contents
  deriving DecidableEq, Repr, Inhabited

namespace Component

/-- The last part of the name of a component's file. -/
def fileName : Component → String
  | .data => "Data.db"
  | .index => "Index.db"
  | .filter => "Filter.db"
  | .statistics => "Statistics.db"
  | .contents => "TOC.txt"

def ofFileName? : String → Option Component
  | "Data.db" => some .data
  | "Index.db" => some .index
  | "Filter.db" => some .filter
  | "Statistics.db" => some .statistics
  | "TOC.txt" => some .contents
  | _ => none

/-- All components; the list of contents is last. -/
def all : List Component := [.data, .index, .filter, .statistics, .contents]

theorem ofFileName?_fileName (component : Component) :
    ofFileName? component.fileName = some component := by
  cases component <;> rfl

/-- A component is known by the name of its file alone. -/
theorem eq_fileName_of_ofFileName? {text : String} {component : Component}
    (named : ofFileName? text = some component) : text = component.fileName := by
  unfold ofFileName? at named
  split at named <;> cases named <;> rfl

end Component

end SortedTable

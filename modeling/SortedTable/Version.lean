import SortedTable.Filter.Stored

namespace SortedTable

/-- A format version. The older one stores filters in their older form. -/
inductive Version where
  | ma
  | nb
  deriving DecidableEq, Repr, Inhabited

namespace Version

def name : Version → String
  | .ma => "ma"
  | .nb => "nb"

/-- The name of a version with a capital letter. -/
def label : Version → String
  | .ma => "Ma"
  | .nb => "Nb"

/-- The version that new tables get. -/
def current : Version := .nb

/-- The names of all versions, in order. -/
def names : List String := [name .ma, name .nb]

def ofName? : String → Option Version
  | "ma" => some .ma
  | "nb" => some .nb
  | _ => none

theorem ofName?_name (version : Version) : ofName? version.name = some version := by
  cases version <;> rfl

/-- A version is known by its name alone. -/
theorem eq_name_of_ofName? {text : String} {version : Version}
    (named : ofName? text = some version) : text = version.name := by
  unfold ofName? at named
  split at named <;> cases named <;> rfl

/-- The form in which a table of this version stores its filter. -/
def filterFormat : Version → FilterFormat
  | .ma => .legacy
  | .nb => .current

end Version

end SortedTable

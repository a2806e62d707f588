import SortedTable.Bytes
import SortedTable.Text.Blank
import SortedTable.Text.Uppercase

namespace SortedTable

/-- The commands that need words behind their name. -/
inductive CommandName where
  | put
  | putStatic
  | delete
  | get
  | probe
  deriving DecidableEq, Repr

/-- How a command is used. -/
def CommandName.usage : CommandName → String
  | .put => "PUT key column value"
  | .putStatic => "STATIC key column value"
  | .delete => "DEL key"
  | .get => "GET key"
  | .probe => "PROBE key"

inductive Command where
  | put (key column value : String)
  | putStatic (key column value : String)
  | delete (key : String)
  | get (key : String)
  | probe (key : String)
  | keys
  | flush
  | statistics
  | exit
  /-- A line without words. -/
  | nothing
  /-- Words are missing behind the name. -/
  | incomplete (name : CommandName)
  | unknown (name : String)
  deriving DecidableEq

namespace Command

/-- A command on a key, a column and a value, which is the further words joined by single blanks. -/
def ofCell (name : CommandName) (build : String → String → String → Command) :
    List String → Command
  | key :: column :: first :: rest => build key column (" ".intercalate (first :: rest))
  | _ => .incomplete name

/-- A command on a key; further words are ignored. -/
def ofKey (name : CommandName) (build : String → Command) : List String → Command
  | key :: _ => build key
  | [] => .incomplete name

/-- The command with this name in capital letters and these words behind it. -/
def ofName (name : String) (words : List String) : Command :=
  match name with
  | "PUT" => ofCell .put .put words
  | "STATIC" => ofCell .putStatic .putStatic words
  | "DEL" => ofKey .delete .delete words
  | "GET" => ofKey .get .get words
  | "PROBE" => ofKey .probe .probe words
  | "KEYS" => .keys
  | "FLUSH" => .flush
  | "STATS" => .statistics
  | "EXIT" | "QUIT" => .exit
  | _ => .unknown name

/-- The command of a line. -/
def ofLine (line : String) : Command :=
  match Text.words line with
  | [] => .nothing
  | name :: words => ofName (Text.toUppercase name) words

end Command

end SortedTable

namespace SortedTable

/-- A fault that the operating system reports for a path or a place in a file. -/
inductive SystemFault where
  | notFound
  | isFolder
  | notFolder
  | alreadyExists
  | folderNotEmpty
  | invalidArgument
  /-- A path or one of its names is too long. -/
  | nameTooLong
  /-- Dots in place of a name. -/
  | busy
  deriving DecidableEq, Repr

/-- The wording that the operating system gives to a fault, with its number. -/
def SystemFault.message : SystemFault → String
  | .notFound => "No such file or directory (os error 2)"
  | .isFolder => "Is a directory (os error 21)"
  | .notFolder => "Not a directory (os error 20)"
  | .alreadyExists => "File exists (os error 17)"
  | .folderNotEmpty => "Directory not empty (os error 39)"
  | .invalidArgument => "Invalid argument (os error 22)"
  | .nameTooLong => "File name too long (os error 36)"
  | .busy => "Device or resource busy (os error 16)"

/-- The parts of an encoding that carry their length in front. -/
inductive LengthField where
  | clustering
  | clusteringValue
  | columnName
  | cellCount
  | cellValue
  | unitBody
  | promotedIndex
  deriving DecidableEq, Repr

/-- The name of the part in a message. -/
def LengthField.label : LengthField → String
  | .clustering => "clustering"
  | .clusteringValue => "clustering value"
  | .columnName => "column name"
  | .cellCount => "cell count"
  | .cellValue => "cell value"
  | .unitBody => "unit body"
  | .promotedIndex => "promoted index"

/-- Why reading or writing bytes failed. -/
inductive IoError where
  /-- The input ended before a value was complete. -/
  | unexpectedEnd
  /-- A sink took no byte of a request that must be written whole. -/
  | writeZero
  /-- A request was interrupted and can be made again. -/
  | interrupted
  /-- A length is too large for the width of its prefix. -/
  | lengthOverflow (field : LengthField) (length : Nat)
  /-- A committed table is in the way. -/
  | tableExists (table : String)
  /-- A path holds the character that ends texts for the operating system. -/
  | zeroInPath
  /-- A line of input is not UTF-8. -/
  | invalidText
  /-- A fault of the medium, in its own words. -/
  | other (reason : String)
  /-- A fault of the operating system. -/
  | system (fault : SystemFault)
  deriving DecidableEq, Repr

def IoError.message : IoError → String
  | .unexpectedEnd => "failed to fill whole buffer"
  | .writeZero => "failed to write whole buffer"
  | .interrupted => "operation interrupted"
  | .lengthOverflow field length =>
      s!"{field.label} of {length} bytes does not fit its length prefix"
  | .tableExists table => s!"table {table} already exists"
  | .zeroInPath => "file name contained an unexpected NUL byte"
  | .invalidText => "stream did not contain valid UTF-8"
  | .other reason => reason
  | .system fault => fault.message

/-- The fault of the operating system behind an error, if there is one. -/
def IoError.systemFault? : IoError → Option SystemFault
  | .system fault => some fault
  | _ => none

/-- Errors that can stem from input and output. -/
class OfIoError (ε : Type) where
  ofIoError : IoError → ε

instance : OfIoError IoError := ⟨id⟩

/-- Restates a failure of input and output as an error of another kind. -/
def liftIo {ε α : Type} [OfIoError ε] : Except IoError α → Except ε α
  | .ok value => .ok value
  | .error cause => .error (OfIoError.ofIoError cause)

end SortedTable

import SortedTable.Decimal.Shortest
import SortedTable.Filter.Bits
import SortedTable.IoError

namespace SortedTable

/-- What is wrong with the wanted size of a filter. -/
inductive ParameterFlaw where
  | noElements
  | chanceOutOfRange (chance : Float)
  | tooManyElements (elements : UInt64) (chance : Float)
  | noHashFunction
  | noBits
  | tooManyWords (words : UInt64)

def ParameterFlaw.message : ParameterFlaw → String
  | .noElements => "expected_elements must be > 0"
  | .chanceOutOfRange chance => s!"fp_chance must be in (0, 1), got {Decimal.text chance}"
  | .tooManyElements elements chance =>
      s!"{elements} elements at fp_chance {Decimal.text chance} needs more than " ++
        s!"{maxFilterBytes} bytes"
  | .noHashFunction => "filter needs at least one hash function"
  | .noBits => "filter needs a non-empty bit array"
  | .tooManyWords words => s!"bit array of {words} words exceeds {maxFilterBytes} bytes"

/-- What is wrong with a stored filter. -/
inductive StoredFlaw where
  | hashCount (count : UInt32)
  | wordCount (count : UInt64)
  deriving DecidableEq

def StoredFlaw.message : StoredFlaw → String
  | .hashCount count => s!"hash_count {count}"
  | .wordCount count => s!"bit array of {count} words (max {maxFilterBytes} bytes)"

inductive FilterError where
  | invalidParameters (flaw : ParameterFlaw)
  | corrupt (flaw : StoredFlaw)
  | io (cause : IoError)

def FilterError.message : FilterError → String
  | .invalidParameters flaw => s!"invalid filter parameters: {flaw.message}"
  | .corrupt flaw => s!"corrupt filter: {flaw.message}"
  | .io cause => s!"I/O error: {cause.message}"

instance : OfIoError FilterError := ⟨.io⟩

end SortedTable

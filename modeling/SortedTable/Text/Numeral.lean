namespace SortedTable.Text

/-- Why a text is no numeral. -/
inductive NumeralFlaw where
  | empty
  | invalidDigit
  | tooLarge
  deriving DecidableEq, Repr

def NumeralFlaw.message : NumeralFlaw → String
  | .empty => "cannot parse integer from empty string"
  | .invalidDigit => "invalid digit found in string"
  | .tooLarge => "number too large to fit in target type"

/-- Reads further digits behind `value`, which must stay below the limit. -/
def readDigits (limit : Nat) : List Char → Nat → Except NumeralFlaw Nat
  | [], value => .ok value
  | digit :: rest, value =>
      if digit.isDigit then
        let next := 10 * value + (digit.toNat - '0'.toNat)
        if next < limit then readDigits limit rest next else .error .tooLarge
      else .error .invalidDigit

/-- Reads a numeral below the limit. -/
def readNumeral (limit : Nat) (text : String) : Except NumeralFlaw Nat :=
  match text.toList with
  | [] => .error .empty
  | ['+'] => .error .invalidDigit
  | '+' :: digits => readDigits limit digits 0
  | digits => readDigits limit digits 0

/-- Reads a numeral of sixty-four bits. -/
def readWord64 (text : String) : Except NumeralFlaw UInt64 :=
  (readNumeral UInt64.size text).map UInt64.ofNat

end SortedTable.Text

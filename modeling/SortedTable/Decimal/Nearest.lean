import SortedTable.Decimal.Double

namespace SortedTable.Decimal

/-- The quotient rounded to the nearest natural, ties to the even one. -/
def roundQuotient (numerator denominator : Nat) : Nat :=
  let quotient := numerator / denominator
  let rest := 2 * (numerator % denominator)
  if rest < denominator then quotient
  else if denominator < rest then quotient + 1
  else quotient + quotient % 2

/-- The quotient over a power of two, rounded. -/
def roundAt (numerator denominator : Nat) (exponent : Int) : Nat :=
  if 0 ≤ exponent then roundQuotient numerator (denominator * powerOfTwo exponent.toNat)
  else roundQuotient (numerator * powerOfTwo (-exponent).toNat) denominator

/-- Whether the quotient is at least a power of two. -/
def atLeastPower (numerator denominator : Nat) (exponent : Int) : Bool :=
  if 0 ≤ exponent then denominator * powerOfTwo exponent.toNat ≤ numerator
  else denominator ≤ numerator * powerOfTwo (-exponent).toNat

/-- The bits of the nonnegative double nearest to a quotient. -/
def nearestBits (numerator denominator : Nat) : Nat :=
  if numerator = 0 then 0
  else
    let guess := (numerator.log2 : Int) - (denominator.log2 : Int)
    let binade := if atLeastPower numerator denominator guess then guess else guess - 1
    let exponent := max (binade - 52) (-1074)
    let rounded := roundAt numerator denominator exponent
    let carries := rounded = 2 * hiddenBit
    let mantissa := if carries then hiddenBit else rounded
    let scale := if carries then exponent + 1 else exponent
    if mantissa < hiddenBit then mantissa
    else if 971 < scale then infinityBits
    else (scale + 1074).toNat * hiddenBit + mantissa

/-- The double nearest to `mantissa · 10 ^ exponent`. -/
def nearest (mantissa : Nat) (exponent : Int) : Float :=
  let size := (Nat.toDigits 10 mantissa).length
  let bits :=
    -- no large power is formed far outside the range
    if mantissa = 0 ∨ exponent + size < -330 then 0
    else if 330 < exponent + size then infinityBits
    else if 0 ≤ exponent then nearestBits (mantissa * powerOfTen exponent.toNat) 1
    else nearestBits mantissa (powerOfTen (-exponent).toNat)
  Float.ofBits (UInt64.ofNat bits)

/-- Why a text is no decimal. -/
inductive DecimalFlaw where
  | empty
  | malformed
  deriving DecidableEq, Repr

def DecimalFlaw.message : DecimalFlaw → String
  | .empty => "cannot parse float from empty string"
  | .malformed => "invalid float literal"

/-- The number that a run of digits adds behind a value. -/
def digitsValue (digits : List Char) (value : Nat) : Nat :=
  digits.foldl (fun sum digit => 10 * sum + (digit.toNat - '0'.toNat)) value

/-- The exponent of a decimal: nothing, or the letter with a sign and at least one digit. -/
def readExponent : List Char → Option Int
  | [] => some 0
  | letter :: rest =>
      if letter = 'e' ∨ letter = 'E' then
        let (negative, digits) := match rest with
          | '-' :: digits => (true, digits)
          | '+' :: digits => (false, digits)
          | digits => (false, digits)
        if digits.isEmpty || !digits.all Char.isDigit then none
        else
          let size : Int := digitsValue digits 0
          some (if negative then -size else size)
      else none

/-- Digits with at most one point and an exponent; one side of the point may be empty. -/
def readPositive (characters : List Char) : Option Float :=
  let whole := characters.takeWhile Char.isDigit
  let behindWhole := characters.dropWhile Char.isDigit
  let (fraction, behind) := match behindWhole with
    | '.' :: rest => (rest.takeWhile Char.isDigit, rest.dropWhile Char.isDigit)
    | rest => ([], rest)
  if whole.isEmpty && fraction.isEmpty then none
  else
    (readExponent behind).map fun exponent =>
      nearest (digitsValue fraction (digitsValue whole 0)) (exponent - fraction.length)

/-- The words for infinity and for no number, in small letters. -/
def readWord (letters : List Char) : Option Float :=
  let word := String.ofList (letters.map Char.toLower)
  if word = "inf" ∨ word = "infinity" then some (Float.ofBits 0x7FF0000000000000)
  else if word = "nan" then some (Float.ofBits 0x7FF8000000000000)
  else none

/-- Reads a decimal with an optional sign. -/
def read (text : String) : Except DecimalFlaw Float :=
  let characters := text.toList
  if characters.isEmpty then .error .empty
  else
    let (negative, body) := match characters with
      | '-' :: rest => (true, rest)
      | '+' :: rest => (false, rest)
      | rest => (false, rest)
    match (readPositive body).or (readWord body) with
    | some value => .ok (if negative then -value else value)
    | none => .error .malformed

end SortedTable.Decimal

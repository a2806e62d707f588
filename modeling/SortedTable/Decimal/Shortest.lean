import SortedTable.Decimal.Double

namespace SortedTable.Decimal

/-- A positive number `mantissa · 2 ^ exponent` of fifty-three binary digits at most. -/
structure Binary where
  mantissa : Nat
  exponent : Int
  /-- Then its smaller neighbour is half as far away. -/
  opensBinade : Bool

/-- The magnitude of a finite double other than zero, by its bits. -/
def Binary.ofBits (bits : Nat) : Binary :=
  let fraction : Nat := bits % hiddenBit
  let scale : Nat := bits / hiddenBit % exponentRange
  if scale = 0 then ⟨fraction, -1074, false⟩
  else ⟨hiddenBit + fraction, (scale : Int) - 1075, fraction = 0 ∧ 1 < scale⟩

/-- The digits of a decimal and the power of ten of the first one: `0.d₁d₂… · 10 ^ (power + 1)`. -/
structure Digits where
  digits : List Char
  power : Int

/-- A quotient of naturals times a power of ten. -/
def scaleTen (numerator denominator : Nat) (power : Int) : Nat × Nat :=
  if 0 ≤ power then (numerator * powerOfTen power.toNat, denominator)
  else (numerator, denominator * powerOfTen (-power).toNat)

/-- The numerators of a number and of the ends of its interval over one denominator. -/
structure Interval where
  low : Nat
  value : Nat
  high : Nat
  denominator : Nat
  closed : Bool

/-- The interval of reals that are nearest to the number; ties go to the even neighbour. -/
def Binary.interval (number : Binary) : Interval :=
  let low := 4 * number.mantissa - (if number.opensBinade then 1 else 2)
  let shift := number.exponent - 2
  let factor := if 0 ≤ shift then powerOfTwo shift.toNat else 1
  let denominator := if 0 ≤ shift then 1 else powerOfTwo (-shift).toNat
  { low := low * factor
    value := 4 * number.mantissa * factor
    high := (4 * number.mantissa + 2) * factor
    denominator := denominator
    closed := number.mantissa % 2 = 0 }

/-- Whether `grid · 10 ^ power` lies in the interval. -/
def Interval.holds (interval : Interval) (grid : Nat) (power : Int) : Bool :=
  let point := scaleTen (grid * interval.denominator) 1 power
  let low := interval.low * point.2
  let high := interval.high * point.2
  if interval.closed then low ≤ point.1 && point.1 ≤ high else low < point.1 && point.1 < high

/-- The power of ten of the first digit of the value. -/
def Interval.leadingPower (interval : Interval) : Int :=
  let whole := interval.value / interval.denominator
  if 0 < whole then ((Nat.toDigits 10 whole).length : Int) - 1
  else
    match (List.range 330).find? fun count =>
        interval.denominator ≤ interval.value * powerOfTen (count + 1) with
    | some count => -((count : Int) + 1)
    | none => -330

/-- The multiple of `10 ^ power` next to the value in the interval; the upper one if two are equally
near. -/
def Interval.gridPoint? (interval : Interval) (power : Int) : Option Nat :=
  let scaled := scaleTen interval.value interval.denominator (-power)
  let below := scaled.1 / scaled.2
  let fitsBelow := interval.holds below power
  let fitsAbove := interval.holds (below + 1) power
  if fitsBelow && fitsAbove then
    some (if 2 * (scaled.1 % scaled.2) < scaled.2 then below else below + 1)
  else if fitsBelow then some below
  else if fitsAbove then some (below + 1)
  else none

/-- The coarsest grid with a point in the interval gives the fewest digits. -/
def Interval.shortest (interval : Interval) : Digits :=
  let leading := interval.leadingPower
  let found := (List.range 18).findSome? fun (count : Nat) =>
    let power := leading - (count : Int)
    (interval.gridPoint? power).map fun point => (point, power)
  match found with
  | some (point, power) =>
      let digits := Nat.toDigits 10 point
      ⟨digits, power + (digits.length : Int) - 1⟩
  | none => ⟨['0'], 0⟩

/-- Digits in positional notation, without an exponent and without a point behind a whole number. -/
def Digits.positional (decimal : Digits) : List Char :=
  let count := (decimal.digits.length : Int)
  if decimal.power < 0 then
    ['0', '.'] ++ List.replicate ((-decimal.power).toNat - 1) '0' ++ decimal.digits
  else if count ≤ decimal.power + 1 then
    decimal.digits ++ List.replicate (decimal.power + 1 - count).toNat '0'
  else
    decimal.digits.take (decimal.power + 1).toNat ++ ['.'] ++
      decimal.digits.drop (decimal.power + 1).toNat

/-- Drops the zeros at the end of the digits but keeps the first digit. -/
def Digits.trimmed (decimal : Digits) : Digits :=
  match decimal.digits with
  | [] => decimal
  | first :: rest =>
      ⟨first :: (rest.reverse.dropWhile (· == '0')).reverse, decimal.power⟩

/-- The text of a double: the shortest digits in positional notation, or a word if it is not finite. -/
def text (value : Float) : String :=
  let bits := value.toBits.toNat
  let negative := signBit ≤ bits
  let magnitude := bits % signBit
  if infinityBits < magnitude then "NaN"
  else
    let body :=
      if magnitude = infinityBits then "inf"
      else if magnitude = 0 then "0"
      else String.ofList (Binary.ofBits magnitude).interval.shortest.trimmed.positional
    if negative then "-" ++ body else body

end SortedTable.Decimal

namespace SortedTable.Text

/-- The digits of a number in base sixteen. -/
def hexadecimal (value : Nat) : String := String.ofList (Nat.toDigits 16 value)

/-- The digits of a number in base sixteen, filled with zeros up to a width. -/
def hexadecimalFilled (width value : Nat) : String :=
  let digits := Nat.toDigits 16 value
  String.ofList (List.replicate (width - digits.length) '0' ++ digits)

end SortedTable.Text

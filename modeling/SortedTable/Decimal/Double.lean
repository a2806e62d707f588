namespace SortedTable.Decimal

def powerOfTwo (exponent : Nat) : Nat := Nat.pow 2 exponent

def powerOfTen (exponent : Nat) : Nat := Nat.pow 10 exponent

/-- The bit above the fifty-two bits of the fraction, which is not stored. -/
def hiddenBit : Nat := 0x10000000000000

/-- The number of exponents, of which the last one stands for what is not finite. -/
def exponentRange : Nat := 0x800

/-- The bits of infinity. -/
def infinityBits : Nat := 0x7FF0000000000000

/-- The bit of the sign. -/
def signBit : Nat := 0x8000000000000000

end SortedTable.Decimal

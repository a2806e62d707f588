namespace SortedTable

/-- Why a count or a position has no value. -/
inductive Overflow where
  /-- A sum is too large for a word. -/
  | addition
  /-- A difference is below zero. -/
  | subtraction
  /-- No memory has room for this many entries. -/
  | capacity
  deriving DecidableEq, Repr

def Overflow.message : Overflow → String
  | .addition => "attempt to add with overflow"
  | .subtraction => "attempt to subtract with overflow"
  | .capacity => "capacity overflow"

/-- The sum of two words, if it is a word. -/
def exactSum (left right : UInt64) : Except Overflow UInt64 :=
  if left.toNat + right.toNat < UInt64.size then .ok (left + right) else .error .addition

/-- The difference of two words, if it is a word. -/
def exactDifference (left right : UInt64) : Except Overflow UInt64 :=
  if right ≤ left then .ok (left - right) else .error .subtraction

theorem toNat_of_exactSum {left right sum : UInt64} (exact : exactSum left right = .ok sum) :
    sum.toNat = left.toNat + right.toNat := by
  unfold exactSum at exact
  split at exact
  · rename_i fits
    cases exact
    rw [UInt64.toNat_add]
    exact Nat.mod_eq_of_lt fits
  · cases exact

theorem toNat_of_exactDifference {left right difference : UInt64}
    (exact : exactDifference left right = .ok difference) :
    difference.toNat + right.toNat = left.toNat := by
  unfold exactDifference at exact
  split at exact
  · rename_i below
    cases exact
    have bound : right.toNat ≤ left.toNat := UInt64.le_iff_toNat_le.1 below
    rw [UInt64.toNat_sub_of_le _ _ below]
    omega
  · cases exact

end SortedTable

import SortedTable.Hash.Murmur
import SortedTable.Text.Lossy

namespace SortedTable

/-- The bytes of a partition key with their hash. -/
structure Key where
  bytes : Bytes
  hash : Murmur.Words
  hashed : hash = Murmur.hash bytes 0

namespace Key

def ofBytes (bytes : Bytes) : Key := ⟨bytes, Murmur.hash bytes 0, rfl⟩

@[simp] theorem bytes_ofBytes (bytes : Bytes) : (ofBytes bytes).bytes = bytes := rfl

/-- The bytes decide a key. -/
@[ext] theorem ext {left right : Key} (same : left.bytes = right.bytes) : left = right := by
  obtain ⟨bytes, hash, hashed⟩ := left
  obtain ⟨bytes', hash', hashed'⟩ := right
  cases same
  cases hashed.trans hashed'.symm
  rfl

instance : DecidableEq Key := fun left right =>
  decidable_of_iff (left.bytes = right.bytes) ⟨ext, congrArg bytes⟩

instance : Inhabited Key := ⟨ofBytes []⟩

/-- The place of a key on the ring of tokens. -/
def token (key : Key) : Int64 := key.hash.first.toInt64

instance : Ord Key := ⟨compareLex (compareOn token) (compareOn bytes)⟩

instance : Std.TransOrd Key :=
  inferInstanceAs (Std.TransCmp (compareLex (compareOn token) (compareOn bytes)))

/-- Keys that compare equal are the same key. -/
instance : Std.LawfulEqOrd Key where
  eq_of_compare {left right} same := by
    apply ext
    have parts : (compareOn token left right).then (compareOn bytes left right) = .eq := same
    rw [Ordering.then_eq_eq] at parts
    exact Std.LawfulEqCmp.eq_of_compare parts.2

/-- A key in words: its token and its bytes as text. -/
def render (key : Key) : String := s!"DecoratedKey({key.token}, {Text.lossy key.bytes})"

end Key

end SortedTable

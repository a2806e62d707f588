import SortedTable.Filter.Bloom

namespace SortedTable.Bloom

/-- The natural logarithm of two. -/
def logTwo : Float := 0.693147180559945309417232121458

/-- The number of words: `-n · ln p / (ln 2)²` bits in whole words, at least one. -/
def wordsFor (elements : UInt64) (chance : Float) : UInt64 :=
  let bits := (-elements.toFloat * chance.log / (logTwo * logTwo)).ceil
  let words := (bits / 64.0).ceil
  (if words < 1.0 then 1.0 else words).toUInt64

/-- The number of hash functions for a number of words: `m / n · ln 2`, rounded. -/
def hashCountFor (elements words : UInt64) : UInt32 :=
  let count := ((words * 64).toFloat / elements.toFloat * logTwo).round
  (if maxHashCount.toFloat < count then maxHashCount.toFloat else count).toUInt32

/-- An empty filter for a number of elements. -/
def forElements (elements : UInt64) (chance : Float) : Except FilterError Bloom :=
  if elements = 0 then .error (.invalidParameters .noElements)
  else if 0.0 < chance && chance < 1.0 then
    let words := wordsFor elements chance
    if maxFilterWords < words.toNat then
      .error (.invalidParameters (.tooManyElements elements chance))
    else withParameters (hashCountFor elements words) words
  else .error (.invalidParameters (.chanceOutOfRange chance))

end SortedTable.Bloom

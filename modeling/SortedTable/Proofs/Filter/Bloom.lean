import SortedTable.Filter.Basic
import SortedTable.Proofs.Decoder
import SortedTable.Proofs.Filter.Probes
import SortedTable.Proofs.Filter.Sizing

namespace SortedTable

namespace Bloom

/-- A stored filter with an acceptable number of hash functions is read back. -/
theorem reads_storedFields (bloom : Bloom) (format : FilterFormat)
    (few : bloom.hashCount ≤ maxHashCount) :
    Decoder.Reads (load format) (bloom.storedFields format).flatten bloom := by
  have decodes {width value : Nat} (fits : value < Bytes.limit width) :
      Decoder.Reads (format.decode width) (format.encode width value) value := by
    cases format with
    | legacy => exact .big fits
    | current => exact .little fits
  have positive := bloom.bits.positive
  have bounded := bloom.bits.bounded
  have most : maxFilterWords = 16777216 := rfl
  have narrow : bloom.bits.words.size < Bytes.limit format.countWidth := by
    cases format with
    | legacy => exact Nat.lt_of_le_of_lt bounded (by decide)
    | current => exact Nat.lt_of_le_of_lt bounded (by decide)
  have words : Decoder.Reads (Decoder.many (format.decode 8) bloom.bits.words.size)
      (bloom.bits.words.toList.map fun word => format.encode 8 word.toNat).flatten
      (bloom.bits.words.toList.map UInt64.toNat) := by
    refine .many (by simp) ?_
    rw [List.forall₂_map_left_iff, List.forall₂_map_right_iff]
    exact List.forall₂_same.2 fun word _ => decodes word.toNat_lt
  rw [storedFields, List.flatten_cons, List.flatten_cons]
  refine (decodes bloom.hashCount.toNat_lt).bind ((decodes narrow).bind ?_)
  simp only [UInt32.ofNat_toNat, bloom.hashing, few, positive, bounded, true_and, dif_pos, if_pos]
  refine words.bindPure ?_
  have same : ((bloom.bits.words.toList.map UInt64.toNat).map UInt64.ofNat).toArray =
      bloom.bits.words := by
    rw [List.map_map]
    simp [Function.comp_def]
  rw [same, Bits.ofWords?, dif_pos ⟨positive, bounded⟩]

/-- The length of the stored form. -/
theorem length_storedFields (bloom : Bloom) (format : FilterFormat) :
    (bloom.storedFields format).flatten.length =
      4 + format.countWidth + 8 * bloom.bits.words.size := by
  have width (width value : Nat) : (format.encode width value).length = width := by
    cases format with
    | legacy => exact Bytes.length_bigEndian width value
    | current => exact Bytes.length_littleEndian width value
  rw [storedFields, List.flatten_cons, List.flatten_cons, List.length_append, List.length_append,
    width, width, List.length_flatten, List.map_map]
  simp [Function.comp_def, width]
  omega

end Bloom

namespace Filter

/-- The stored form of a filter has hardly more bytes than the largest bit array. -/
theorem length_storedFields_le (filter : Filter) (format : FilterFormat) :
    (filter.storedFields format).flatten.length ≤ 12 + maxFilterBytes := by
  cases filter with
  | alwaysPresent => exact Nat.zero_le _
  | bloom held =>
      have length := held.length_storedFields format
      have bounded := held.bits.bounded
      have narrow : format.countWidth ≤ 8 := by cases format <;> decide
      have whole : 8 * maxFilterWords = maxFilterBytes := rfl
      show (held.storedFields format).flatten.length ≤ _
      omega


/-- A key that was added is admitted. -/
theorem isPresent_add_self (filter : Filter) (hash : Murmur.Words) :
    (filter.add hash).isPresent hash = true := by
  cases filter with
  | alwaysPresent => rfl
  | bloom held => exact held.isPresent_add_self hash

/-- A key that is admitted stays so when others are added. -/
theorem isPresent_add_of_isPresent {filter : Filter} {hash : Murmur.Words} (other : Murmur.Words)
    (held : filter.isPresent hash = true) : (filter.add other).isPresent hash = true := by
  cases filter with
  | alwaysPresent => rfl
  | bloom bloom => exact Bloom.isPresent_add_of_isPresent other held

/-- The filter can be read back from its stored form. -/
def IsReadable (filter : Filter) : Prop :=
  ∀ bloom, filter = .bloom bloom → bloom.hashCount ≤ maxHashCount

theorem IsReadable.add {filter : Filter} (readable : filter.IsReadable)
    (hash : Murmur.Words) : (filter.add hash).IsReadable := by
  intro bloom same
  cases filter with
  | alwaysPresent => cases same
  | bloom held =>
      cases same
      exact readable held rfl

theorem isReadable_of_forTable {elements : UInt64} {chance : Float} {filter : Filter}
    (made : Filter.forTable elements chance = .ok filter) : filter.IsReadable := by
  rintro bloom rfl
  unfold forTable at made
  split at made
  · cases made
  · obtain ⟨built, sized, same⟩ := Except.map_eq_ok_iff.1 made
    cases same
    exact Bloom.hashCount_le_of_forElements sized

/-- A filter that stores anything is read back from it. -/
theorem IsReadable.load_storedFields {filter : Filter} (readable : filter.IsReadable)
    (informative : filter.isInformative = true) (format : FilterFormat) :
    load format (filter.storedFields format).flatten = .ok (filter, []) := by
  cases filter with
  | alwaysPresent => cases informative
  | bloom held =>
      have read := Bloom.reads_storedFields held format (readable held rfl) []
      rw [List.append_nil] at read
      exact congrArg (Except.map fun found => (Filter.bloom found.1, found.2)) read

end Filter

end SortedTable

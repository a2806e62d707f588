import SortedTable.Proofs.Decoder.Exact
import SortedTable.Proofs.Filter.Bloom

namespace SortedTable

namespace FilterFormat

theorem decode_eq_ok_iff {format : FilterFormat} {width value : Nat} {bytes rest : Bytes} :
    format.decode width bytes = .ok (value, rest) ↔
      value < Bytes.limit width ∧ bytes = format.encode width value ++ rest := by
  cases format with
  | legacy => exact Decoder.big_eq_ok_iff
  | current => exact Decoder.little_eq_ok_iff

/-- A number of one byte is a great one in the other order. -/
theorem encode_four_of_ne {format other : FilterFormat} (differ : other ≠ format) {value : Nat}
    (small : value < 256) : format.encode 4 value = other.encode 4 (2 ^ 24 * value) := by
  have swapped := Bytes.bigEndian_four_of_lt small
  cases format <;> cases other
  case legacy.legacy | current.current => exact absurd rfl differ
  case legacy.current => exact swapped
  case current.legacy =>
    rw [encode, encode, Bytes.bigEndian, ← swapped, Bytes.bigEndian, List.reverse_reverse]

theorem exists_decode_eq_ok (format : FilterFormat) {width : Nat} {bytes : Bytes}
    (enough : width ≤ bytes.length) :
    ∃ value rest, format.decode width bytes = .ok (value, rest) := by
  have taken : (Decoder.take width : Decoder FilterError Bytes) bytes =
      .ok (bytes.take width, bytes.drop width) :=
    Decoder.take_eq_ok_iff.2 ⟨List.length_take_of_le enough, (List.take_append_drop width bytes).symm⟩
  cases format with
  | legacy => exact ⟨_, _, Decoder.map_eq_ok_iff.2 ⟨_, taken, rfl⟩⟩
  | current => exact ⟨_, _, Decoder.map_eq_ok_iff.2 ⟨_, taken, rfl⟩⟩

theorem countWidth_le (format : FilterFormat) : format.countWidth ≤ 8 := by
  cases format <;> decide

end FilterFormat

theorem Bits.ofWords?_eq_some_iff {words : Array UInt64} {bits : Bits} :
    ofWords? words = some bits ↔ bits.words = words := by
  constructor
  · intro made
    rw [ofWords?] at made
    split at made
    · cases made
      rfl
    · cases made
  · rintro rfl
    rw [ofWords?, dif_pos ⟨bits.positive, bits.bounded⟩]

namespace Bloom

variable {format : FilterFormat} {bloom : Bloom} {bytes rest : Bytes}

theorem length_store (bloom : Bloom) (format : FilterFormat) :
    (bloom.store format).length = (bloom.storedSize format).toNat := by
  have bounded := bloom.bits.bounded
  have most : maxFilterWords = 16777216 := rfl
  have narrow := format.countWidth_le
  rw [store, length_storedFields, storedSize, Bits.byteSize, UInt64.toNat_add, UInt64.toNat_add,
    UInt64.toNat_mul, UInt64.toNat_ofNat', UInt64.toNat_ofNat']
  change _ = ((4 + format.countWidth % 2 ^ 64) % 2 ^ 64 +
    8 * (bloom.bits.words.size % 2 ^ 64) % 2 ^ 64) % 2 ^ 64
  omega

/-- The number of hash functions comes first, and the fields behind it have twelve bytes or more. -/
theorem exists_store_eq (bloom : Bloom) (format : FilterFormat) :
    ∃ back, bloom.store format = format.encode 4 bloom.hashCount.toNat ++ back ∧
      12 ≤ back.length := by
  have length := bloom.length_storedFields format
  have positive := bloom.bits.positive
  have wide : 4 ≤ format.countWidth := by cases format <;> decide
  have front : (format.encode 4 bloom.hashCount.toNat).length = 4 := by
    cases format with
    | legacy => exact Bytes.length_bigEndian 4 _
    | current => exact Bytes.length_littleEndian 4 _
  rw [storedFields, List.flatten_cons, List.length_append, front] at length
  exact ⟨_, List.flatten_cons, by omega⟩

/-- The fields of a filter with these words. -/
theorem store_of_words {words : List Nat} (fits : ∀ word ∈ words, word < Bytes.limit 8)
    (same : bloom.bits.words = (words.map UInt64.ofNat).toArray) :
    bloom.store format = format.encode 4 bloom.hashCount.toNat ++
      (format.encode format.countWidth words.length ++ (words.map (format.encode 8)).flatten) := by
  have each : (words.map UInt64.ofNat).map (fun word => format.encode 8 word.toNat) =
      words.map (format.encode 8) := by
    rw [List.map_map]
    refine List.map_congr_left fun word member => ?_
    exact congrArg (format.encode 8) (UInt64.toNat_ofNat_of_lt' (fits word member))
  rw [store, storedFields, same, List.size_toArray, List.length_map, List.toList_toArray, each,
    List.flatten_cons, List.flatten_cons]

/-- What is read is exactly what a filter with few enough hash functions is stored as. -/
theorem load_eq_ok_iff :
    load format bytes = .ok (bloom, rest) ↔
      bloom.hashCount ≤ maxHashCount ∧ bytes = bloom.store format ++ rest := by
  constructor
  · intro read
    obtain ⟨functions, _, first, counted⟩ := Decoder.bind_eq_ok_iff.1 read
    obtain ⟨narrow, rfl⟩ := FilterFormat.decode_eq_ok_iff.1 first
    obtain ⟨count, _, second, loaded⟩ := Decoder.bind_eq_ok_iff.1 counted
    obtain ⟨-, rfl⟩ := FilterFormat.decode_eq_ok_iff.1 second
    split at loaded
    · rename_i hashing
      split at loaded
      · obtain ⟨words, _, third, built⟩ := Decoder.bind_eq_ok_iff.1 loaded
        obtain ⟨rfl, fits, rfl⟩ :=
          (Decoder.many_eq_ok_iff FilterFormat.decode_eq_ok_iff).1 third
        cases made : Bits.ofWords? (words.map UInt64.ofNat).toArray with
        | none =>
            rw [made] at built
            cases built
        | some bits =>
            rw [made] at built
            obtain ⟨rfl, rfl⟩ := Decoder.pure_eq_ok_iff.1 built
            refine ⟨hashing.2, ?_⟩
            rw [store_of_words fits (Bits.ofWords?_eq_some_iff.1 made),
              UInt32.toNat_ofNat_of_lt' narrow]
            simp only [List.append_assoc]
      · cases loaded
    · cases loaded
  · rintro ⟨few, rfl⟩
    exact reads_storedFields bloom format few rest

/-- Too many hash functions are refused, whatever follows their number. -/
theorem load_of_lt {functions : UInt32} (many : maxHashCount < functions)
    (enough : format.countWidth ≤ bytes.length) :
    load format (format.encode 4 functions.toNat ++ bytes) =
      .error (.corrupt (.hashCount functions)) := by
  have first : format.decode 4 (format.encode 4 functions.toNat ++ bytes) =
      .ok (functions.toNat, bytes) :=
    FilterFormat.decode_eq_ok_iff.2 ⟨functions.toNat_lt, rfl⟩
  obtain ⟨count, rest, second⟩ := format.exists_decode_eq_ok enough
  rw [load, Decoder.bind_of_eq_ok first, Decoder.bind_of_eq_ok second]
  simp only [UInt32.ofNat_toNat]
  rw [dif_neg fun held => UInt32.not_lt.2 held.2 many]
  rfl

/-- A filter with too many hash functions is refused once it is stored. -/
theorem load_store_of_lt (many : maxHashCount < bloom.hashCount) :
    load format (bloom.store format ++ rest) = .error (.corrupt (.hashCount bloom.hashCount)) := by
  obtain ⟨back, same, long⟩ := bloom.exists_store_eq format
  have narrow := format.countWidth_le
  rw [same, List.append_assoc]
  refine load_of_lt many ?_
  rw [List.length_append]
  omega

/-- A stored filter is read back, unless it was given more hash functions than are read. -/
theorem load_of_built {fresh : Bloom}
    (built : (∃ hashCount words, withParameters hashCount words = .ok fresh) ∨
      ∃ elements chance, forElements elements chance = .ok fresh)
    (hashes : List Murmur.Words) (format : FilterFormat) (rest : Bytes) :
    ((hashes.foldl add fresh).store format).length =
        ((hashes.foldl add fresh).storedSize format).toNat ∧
      (fresh.hashCount ≤ maxHashCount ∧
          load format ((hashes.foldl add fresh).store format ++ rest) =
            .ok (hashes.foldl add fresh, rest) ∨
        ∃ hashCount words, maxHashCount < hashCount ∧ withParameters hashCount words = .ok fresh ∧
          load format ((hashes.foldl add fresh).store format ++ rest) =
            .error (.corrupt (.hashCount hashCount))) := by
  have kept := hashCount_foldl_add fresh hashes
  refine ⟨length_store _ _, ?_⟩
  by_cases few : fresh.hashCount ≤ maxHashCount
  · exact .inl ⟨few, load_eq_ok_iff.2 ⟨kept.trans_le few, rfl⟩⟩
  · have many := UInt32.not_le.1 few
    have refused : load format ((hashes.foldl add fresh).store format ++ rest) =
        .error (.corrupt (.hashCount (hashes.foldl add fresh).hashCount)) :=
      load_store_of_lt (kept ▸ many)
    rw [kept] at refused
    obtain ⟨hashCount, words, made⟩ | ⟨elements, chance, made⟩ := built
    · cases hashCount_of_withParameters made
      exact .inr ⟨_, words, many, made, refused⟩
    · exact absurd (hashCount_le_of_forElements made) few

/-- Three hash functions in two words. -/
theorem load_of_built_pair : ∃ fresh, withParameters 3 2 = .ok fresh ∧
    (([⟨5, 64⟩, ⟨7, 1⟩].foldl add fresh).store .current).length = 24 ∧
      load .current (([⟨5, 64⟩, ⟨7, 1⟩].foldl add fresh).store .current ++ [9]) =
        .ok ([⟨5, 64⟩, ⟨7, 1⟩].foldl add fresh, [9]) := by
  obtain ⟨length, ⟨-, loaded⟩ | ⟨hashCount, words, many, made, -⟩⟩ :=
    load_of_built (.inl ⟨3, 2, rfl⟩) [⟨5, 64⟩, ⟨7, 1⟩] .current [9]
  · exact ⟨_, rfl, length, loaded⟩
  · cases hashCount_of_withParameters made
    exact absurd many (by decide)

/-- Twenty-one hash functions are built and stored, and cannot be read back. -/
theorem load_refuses_surplus : ∃ fresh, withParameters 21 1 = .ok fresh ∧
    load .current (fresh.store .current ++ []) = .error (.corrupt (.hashCount 21)) :=
  ⟨_, rfl, load_store_of_lt (by decide)⟩

/-- What is read is written back as the same bytes, and the other format refuses them. -/
theorem load_is_canonical (read : load format bytes = .ok (bloom, rest)) :
    ∃ taken, bytes = taken ++ rest ∧ bloom.store format = taken ∧
      ∀ other, other ≠ format → ∀ more,
        load other (bloom.store other ++ more) = .ok (bloom, more) ∧
          load other (taken ++ more) = .error (.corrupt (.hashCount (16777216 * bloom.hashCount))) := by
  obtain ⟨few, rfl⟩ := load_eq_ok_iff.1 read
  refine ⟨_, rfl, rfl, fun other differ more => ⟨load_eq_ok_iff.2 ⟨few, rfl⟩, ?_⟩⟩
  obtain ⟨back, same, long⟩ := bloom.exists_store_eq format
  have narrow := other.countWidth_le
  have most : bloom.hashCount.toNat ≤ 20 := UInt32.le_iff_toNat_le.1 few
  have least : 0 < bloom.hashCount.toNat := UInt32.lt_iff_toNat_lt.1 bloom.hashing
  -- A small number read in the other order is above every number of hash functions.
  have swapped : (16777216 * bloom.hashCount).toNat = 2 ^ 24 * bloom.hashCount.toNat := by
    rw [UInt32.toNat_mul]
    exact Nat.mod_eq_of_lt (show 2 ^ 24 * bloom.hashCount.toNat < 2 ^ 32 by omega)
  have many : maxHashCount < 16777216 * bloom.hashCount := by
    rw [UInt32.lt_iff_toNat_lt, swapped]
    show 20 < _
    omega
  rw [same, List.append_assoc, FilterFormat.encode_four_of_ne differ (by omega), ← swapped]
  refine load_of_lt many ?_
  rw [List.length_append]
  omega

/-- One hash function with one word in the current format. -/
theorem load_is_canonical_lone :
    load .current [1, 0, 0, 0, 1, 0, 0, 0, 5, 0, 0, 0, 0, 0, 0, 0, 7] =
        .ok (⟨1, ⟨#[5], by decide, by decide⟩, by decide⟩, [7]) ∧
      load .legacy [1, 0, 0, 0, 1, 0, 0, 0, 5, 0, 0, 0, 0, 0, 0, 0] =
        .error (.corrupt (.hashCount 16777216)) := by
  have read : load .current [1, 0, 0, 0, 1, 0, 0, 0, 5, 0, 0, 0, 0, 0, 0, 0, 7] =
      .ok (⟨1, ⟨#[5], by decide, by decide⟩, by decide⟩, [7]) := rfl
  obtain ⟨_, -, rfl, swapped⟩ := load_is_canonical read
  exact ⟨read, (swapped .legacy (by decide) []).2⟩

end Bloom

end SortedTable

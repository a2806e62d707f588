import SortedTable.Proofs.BlockIndex
import SortedTable.Proofs.Layout.IndexEntry
import SortedTable.Proofs.Writer.Script

namespace SortedTable

/-- The index that a partition gets at a position is no larger than a reader accepts. -/
def Partition.IndexFits (partition : Partition) (blockSize : UInt64) (position : Position) : Prop :=
  ∀ encoded blocks promoted, EncodedElement.ofElements partition.elements = (encoded, none) →
    partition.blocks blockSize position.data encoded = .ok blocks →
    Block.encodeAll blocks = .ok promoted → promoted.length ≤ maxPromotedBytes

/-- A partition of a single element fits into any index. -/
theorem Partition.indexFits_of_single {partition : Partition} (few : partition.elements.length ≤ 1)
    (blockSize : UInt64) (position : Position) : partition.IndexFits blockSize position := by
  intro encoded blocks promoted encodes cut bytes
  have each := EncodedElement.ofElements_eq_none_iff.1 encodes
  have length : encoded.length ≤ 1 := each.length_eq ▸ few
  rw [Partition.blocks_eq_nil length cut] at bytes
  cases bytes
  exact Nat.zero_le _

/-- A partition in a table: where it was placed, and what was written of it. -/
structure Placed (blockSize : UInt64) where
  partition : Partition
  position : Position
  written : partition.Written blockSize position

namespace Placed

variable {blockSize : UInt64}

/-- The entry of the index for the partition. -/
def entry (placed : Placed blockSize) : IndexEntry := ⟨placed.position.data, placed.written.blocks⟩

/-- What a scan of the index notes of the partition. -/
def scanned (placed : Placed blockSize) : ScannedEntry :=
  ⟨placed.partition.key, placed.entry, placed.position.index⟩

/-- The blocks in the entry of the partition take no more bytes than a reader accepts. -/
def EntryFits (placed : Placed blockSize) : Prop :=
  ∀ promoted, Block.encodeAll placed.written.blocks = .ok promoted →
    promoted.length ≤ maxPromotedBytes

/-- The blocks in the entry are the index that the partition gets where it was placed. -/
theorem entryFits_iff {placed : Placed blockSize} :
    placed.EntryFits ↔ placed.partition.IndexFits blockSize placed.position := by
  have elements := EncodedElement.ofElements_eq_none_iff.2 placed.written.encoding.elements_eq
  constructor
  · intro fits encoded blocks promoted encodes cut bytes
    cases elements.symm.trans encodes
    cases placed.written.blocks_eq.symm.trans cut
    exact fits promoted bytes
  · exact fun fits promoted bytes => fits _ _ promoted elements placed.written.blocks_eq bytes

end Placed

/-- The data and the index hold these partitions, one behind the other, each where it was placed. -/
inductive Laid (blockSize : UInt64) : List (Placed blockSize) → Bytes → Bytes → Prop
  | nil : Laid blockSize [] [] []
  | snoc {placed : List (Placed blockSize)} {data index : Bytes} (laid : Laid blockSize placed data index)
      (next : Placed blockSize) (atData : next.position.data = UInt64.ofNat data.length)
      (atIndex : next.position.index = UInt64.ofNat index.length) :
      Laid blockSize (placed ++ [next]) (data ++ next.written.encoding.bytes)
        (index ++ next.written.entry.flatten)

namespace Laid

variable {blockSize : UInt64} {placed : List (Placed blockSize)} {data index : Bytes}

/-- The encoding of a partition starts where the partition was placed. -/
theorem data_split (laid : Laid blockSize placed data index) {one : Placed blockSize}
    (member : one ∈ placed) :
    ∃ front rest, data = front ++ (one.written.encoding.bytes ++ rest) ∧
      one.position.data = UInt64.ofNat front.length := by
  induction laid with
  | nil => cases member
  | @snoc before data index _ next atData _ ih =>
      rcases List.mem_append.1 member with member | member
      · obtain ⟨front, rest, rfl, start⟩ := ih member
        exact ⟨front, rest ++ next.written.encoding.bytes, by simp, start⟩
      · rw [List.mem_singleton.1 member]
        exact ⟨data, [], by simp, atData⟩

/-- The entry of a partition starts where it was placed. -/
theorem index_split (laid : Laid blockSize placed data index) {one : Placed blockSize}
    (member : one ∈ placed) :
    ∃ front rest, index = front ++ (one.written.entry.flatten ++ rest) ∧
      one.position.index = UInt64.ofNat front.length := by
  induction laid with
  | nil => cases member
  | @snoc before data index _ next _ atIndex ih =>
      rcases List.mem_append.1 member with member | member
      · obtain ⟨front, rest, rfl, start⟩ := ih member
        exact ⟨front, rest ++ next.written.entry.flatten, by simp, start⟩
      · rw [List.mem_singleton.1 member]
        exact ⟨index, [], by simp, atIndex⟩

/-- The data goes on with the encoding of a partition from where the partition was placed. -/
theorem drop_data (laid : Laid blockSize placed data index) (room : data.length < UInt64.size)
    {one : Placed blockSize} (member : one ∈ placed) :
    one.position.data.toNat + one.written.encoding.bytes.length ≤ data.length ∧
      one.written.encoding.bytes <+: data.drop one.position.data.toNat := by
  obtain ⟨front, rest, rfl, start⟩ := laid.data_split member
  simp only [List.length_append] at room ⊢
  have place : one.position.data.toNat = front.length := by
    rw [start, UInt64.toNat_ofNat_of_lt' (by omega)]
  rw [place, List.drop_left]
  exact ⟨by omega, List.prefix_append _ _⟩

/-- The index goes on with the entry of a partition from where the entry was placed. -/
theorem drop_index (laid : Laid blockSize placed data index) (room : index.length < UInt64.size)
    {one : Placed blockSize} (member : one ∈ placed) :
    one.written.entry.flatten <+: index.drop one.position.index.toNat := by
  obtain ⟨front, rest, rfl, start⟩ := laid.index_split member
  rw [List.length_append] at room
  have place : one.position.index.toNat = front.length := by
    rw [start, UInt64.toNat_ofNat_of_lt' (by omega)]
  rw [place, List.drop_left]
  exact List.prefix_append _ _

/-- The entry of a partition is read back from where it was placed. -/
theorem decode_index (laid : Laid blockSize placed data index) (room : index.length < UInt64.size)
    {one : Placed blockSize} (member : one ∈ placed) (fits : one.EntryFits) :
    one.position.index.toNat ≤ index.length ∧
      IndexEntry.decode? (index.drop one.position.index.toNat) =
        .ok (some (one.partition.key, one.entry)) := by
  obtain ⟨front, rest, rfl, start⟩ := laid.index_split member
  simp only [List.length_append] at room
  have place : one.position.index.toNat = front.length := by
    rw [start, UInt64.toNat_ofNat_of_lt' (by omega)]
  rw [place, List.drop_left]
  exact ⟨by simp, IndexEntry.decode?_of_fields one.written.entry_eq fits rest⟩

/-- A scan over the front of an index goes on behind it with all of its entries. -/
theorem scanAfter_append (laid : Laid blockSize placed data index)
    (fits : ∀ one ∈ placed, one.EntryFits) (rest : Bytes) :
    IndexEntry.scanAfter (index ++ rest) 0 [] =
      IndexEntry.scanAfter rest (UInt64.ofNat index.length)
        (placed.map Placed.scanned).reverse := by
  induction laid generalizing rest with
  | nil => rfl
  | snoc _ next _ atIndex ih =>
      have earlier := ih (fun one member => fits one (List.mem_append_left _ member))
        (next.written.entry.flatten ++ rest)
      have last := fits next (List.mem_append_right _ (List.mem_singleton_self next))
      rw [List.append_assoc, earlier,
        IndexEntry.scanAfter_of_fields next.written.entry_eq last, List.length_append,
        UInt64.ofNat_add, List.map_append, List.reverse_append, ← atIndex]
      rfl

/-- A scan of an index finds all of its entries. -/
theorem scan_index (laid : Laid blockSize placed data index)
    (fits : ∀ one ∈ placed, one.EntryFits) :
    IndexEntry.scan index = (placed.map Placed.scanned, none) := by
  have whole := laid.scanAfter_append fits []
  rw [List.append_nil] at whole
  rw [IndexEntry.scan, whole, IndexEntry.scanAfter, List.reverse_reverse]
  rintro _ _ _ ⟨⟩

/-- A scan over the front of an index stops at the first entry that is too large for a reader. -/
theorem scanAfter_of_large (laid : Laid blockSize placed data index)
    (large : ¬ ∀ one ∈ placed, one.EntryFits) (rest : Bytes) :
    ∃ front length, front <+: placed ∧ maxPromotedBytes < length ∧
      IndexEntry.scanAfter (index ++ rest) 0 [] =
        (front.map Placed.scanned, some (.corrupt (.promotedIndexTooLarge length))) := by
  induction laid generalizing rest with
  | nil => exact absurd nofun large
  | @snoc before _ index laid next _ _ ih =>
      rw [List.append_assoc]
      by_cases earlier : ∀ one ∈ before, one.EntryFits
      · have last : ¬ next.EntryFits := fun last => large fun one member =>
          (List.mem_append.1 member).elim (earlier one) fun member => List.mem_singleton.1 member ▸ last
        obtain ⟨promoted, encodes, exceeds⟩ : ∃ promoted,
            Block.encodeAll next.written.blocks = .ok promoted ∧ maxPromotedBytes < promoted.length := by
          simpa [Placed.EntryFits] using last
        refine ⟨before, promoted.length, List.prefix_append _ _, exceeds, ?_⟩
        rw [laid.scanAfter_append earlier,
          IndexEntry.scanAfter_of_large next.written.entry_eq encodes exceeds, List.reverse_reverse]
      · obtain ⟨front, length, below, exceeds, stops⟩ := ih earlier (next.written.entry.flatten ++ rest)
        exact ⟨front, length, below.trans (List.prefix_append _ _), exceeds, stops⟩

/-- A scan of an index with an entry that is too large for a reader fails in front of it. -/
theorem scan_of_large (laid : Laid blockSize placed data index)
    (large : ¬ ∀ one ∈ placed, one.EntryFits) :
    ∃ front length, front <+: placed ∧ maxPromotedBytes < length ∧
      IndexEntry.scan index =
        (front.map Placed.scanned, some (.corrupt (.promotedIndexTooLarge length))) := by
  have stops := laid.scanAfter_of_large large []
  rwa [List.append_nil] at stops

/-- An index has a byte for each partition at least. -/
theorem length_le (laid : Laid blockSize placed data index) : placed.length ≤ index.length := by
  induction laid with
  | nil => exact Nat.le_refl _
  | snoc _ next _ _ ih =>
      have positive := IndexEntry.length_pos_of_fields next.written.entry_eq
      rw [List.length_append, List.length_append, List.length_singleton]
      omega

end Laid

end SortedTable

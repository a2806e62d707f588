import SortedTable.Session

namespace SortedTable

namespace Cells

theorem mem_toList_iff {cells : Cells} {cell : Cell} :
    cell ∈ cells.toList ↔ ∃ column : String, cells[column]? = some cell := by
  rw [toList, List.mem_map]
  constructor
  · rintro ⟨⟨column, held⟩, member, rfl⟩
    exact ⟨column, Std.TreeMap.mem_toList_iff_getElem?_eq_some.1 member⟩
  · rintro ⟨column, held⟩
    exact ⟨(column, cell), Std.TreeMap.mem_toList_iff_getElem?_eq_some.2 held, rfl⟩

/-- Every cell stands under its own column. -/
def IsFiled (cells : Cells) : Prop :=
  ∀ (column : String) (cell : Cell), cells[column]? = some cell → cell.column = column

theorem isFiled_empty : IsFiled ∅ := by
  intro column cell held
  rw [Std.TreeMap.getElem?_emptyc] at held
  cases held

theorem IsFiled.reconcile {cells : Cells} (filed : cells.IsFiled) (cell : Cell) :
    (cells.reconcile cell).IsFiled := by
  intro column found held
  rw [getElem?_reconcile] at held
  split at held
  · rename_i same
    have winner := Option.some.inj held
    unfold Cells.winner at winner
    split at winner
    · rename_i old before
      split at winner
      · rw [← winner, same]
        exact filed _ _ before
      · rw [← winner, same]
    · rw [← winner, same]
  · exact filed column found held

theorem IsFiled.mem_slots {cells : Cells} (filed : cells.IsFiled) (isStatic : Bool)
    (clustering : Clustering) (deletion : Deletion) {slot : Slot} {cell : Cell} :
    (slot, cell) ∈ (Row.ofCells clustering deletion cells.toList).slots isStatic ↔
      slot.isStatic = isStatic ∧ slot.clustering = (if isStatic then [] else clustering) ∧
        cells[slot.column]? = some cell := by
  unfold Row.slots
  rw [List.mem_map]
  constructor
  · rintro ⟨held, member, same⟩
    cases same
    obtain ⟨column, found⟩ := mem_toList_iff.1 (List.mem_mergeSort.1 member)
    refine ⟨rfl, rfl, ?_⟩
    dsimp only
    rw [filed column _ found]
    exact found
  · rintro ⟨rfl, placed, found⟩
    refine ⟨cell, List.mem_mergeSort.2 (mem_toList_iff.2 ⟨_, found⟩), ?_⟩
    obtain ⟨isStatic, clustering', column⟩ := slot
    dsimp only at placed found ⊢
    rw [placed, filed column _ found]
    rfl

end Cells

namespace Contents

/-- The cell of a slot. -/
def cell? (contents : Contents) (slot : Slot) : Option Cell :=
  if slot.isStatic then
    if slot.clustering = [] then contents.staticCells[slot.column]? else none
  else (contents.rows.getD slot.clustering ∅)[slot.column]?

/-- Every cell stands under its own column. -/
structure IsFiled (contents : Contents) : Prop where
  static : contents.staticCells.IsFiled
  rows : ∀ clustering, (contents.rows.getD clustering ∅).IsFiled

theorem IsFiled.mem_staticSlots {contents : Contents} (filed : contents.IsFiled) (key : Key)
    {slot : Slot} {cell : Cell} :
    (slot, cell) ∈ ((contents.partition key).staticRow.elim [] fun row => row.slots true) ↔
      slot.isStatic = true ∧ slot.clustering = [] ∧
        contents.staticCells[slot.column]? = some cell := by
  unfold partition
  dsimp only
  by_cases empty : contents.staticCells.isEmpty = true
  · rw [if_pos empty, Std.TreeMap.getElem?_of_isEmpty empty]
    simp
  · rw [if_neg empty]
    exact filed.static.mem_slots true [] .live

theorem getD_rows_of_getElem? {contents : Contents} {clustering : Clustering} {cells : Cells}
    (held : contents.rows[clustering]? = some cells) : contents.rows.getD clustering ∅ = cells := by
  rw [Std.TreeMap.getD_eq_getD_getElem?, held]
  rfl

theorem IsFiled.mem_rowSlots {contents : Contents} (filed : contents.IsFiled) (key : Key)
    {slot : Slot} {cell : Cell} :
    (slot, cell) ∈ (contents.partition key).elements.flatMap Element.slots ↔
      slot.isStatic = false ∧
        (contents.rows.getD slot.clustering ∅)[slot.column]? = some cell := by
  have markers : (contents.ranges.flatMap DeletedRange.markers).flatMap Element.slots = [] := by
    rw [List.flatMap_assoc, List.flatMap_eq_nil_iff]
    intro range _
    rfl
  have sorted : (slot, cell) ∈ (contents.partition key).elements.flatMap Element.slots ↔
      (slot, cell) ∈ contents.elements.flatMap Element.slots := by
    simp only [List.mem_flatMap, partition, List.mem_mergeSort]
  rw [sorted, elements, List.flatMap_append, markers, List.nil_append]
  simp only [List.mem_flatMap, List.mem_map]
  constructor
  · rintro ⟨_, ⟨⟨clustering, cells⟩, member, rfl⟩, shown⟩
    have held := Std.TreeMap.mem_toList_iff_getElem?_eq_some.1 member
    have same := getD_rows_of_getElem? held
    obtain ⟨regular, placed, found⟩ :=
      ((same ▸ filed.rows clustering).mem_slots false clustering .live).1 shown
    rw [if_neg (by decide)] at placed
    rw [placed, same]
    exact ⟨regular, found⟩
  · rintro ⟨regular, found⟩
    cases held : contents.rows[slot.clustering]? with
    | none =>
        rw [Std.TreeMap.getD_eq_getD_getElem?, held, Option.getD_none,
          Std.TreeMap.getElem?_emptyc] at found
        cases found
    | some cells =>
        rw [Std.TreeMap.getD_eq_getD_getElem?, held, Option.getD_some] at found
        have same := getD_rows_of_getElem? held
        refine ⟨_, ⟨(slot.clustering, cells),
          Std.TreeMap.mem_toList_iff_getElem?_eq_some.2 held, rfl⟩, ?_⟩
        exact ((same ▸ filed.rows slot.clustering).mem_slots false slot.clustering .live).2
          ⟨regular, (if_neg (by decide)).symm, found⟩

/-- The partition of a key shows exactly the cells that the buffer holds. -/
theorem IsFiled.mem_slots {contents : Contents} (filed : contents.IsFiled) (key : Key)
    {slot : Slot} {cell : Cell} :
    (slot, cell) ∈ (contents.partition key).slots ↔ contents.cell? slot = some cell := by
  unfold Partition.slots cell?
  rw [List.mem_append, filed.mem_staticSlots, filed.mem_rowSlots]
  cases slot.isStatic with
  | true =>
      by_cases placed : slot.clustering = []
      · simp [placed]
      · simp [placed]
  | false => simp

/-- The contents after a cell of a row was written. -/
def writeRow (contents : Contents) (clustering : Clustering) (cell : Cell) : Contents :=
  { contents with
    rows := contents.rows.insert clustering
      ((contents.rows.getD clustering ∅).reconcile cell) }

/-- The contents after a cell of the static row was written. -/
def writeStatic (contents : Contents) (cell : Cell) : Contents :=
  { contents with staticCells := contents.staticCells.reconcile cell }

theorem getD_rows_writeRow (contents : Contents) (clustering other : Clustering) (cell : Cell) :
    (contents.writeRow clustering cell).rows.getD other ∅ =
      if clustering = other then (contents.rows.getD clustering ∅).reconcile cell
      else contents.rows.getD other ∅ := by
  rw [writeRow, Std.TreeMap.getD_insert]
  simp only [Std.LawfulEqOrd.compare_eq_iff_eq]

/-- A cell that is written to a row wins its slot unless an older one is newer. -/
theorem cell?_writeRow (contents : Contents) (clustering : Clustering) (cell : Cell) (slot : Slot) :
    (contents.writeRow clustering cell).cell? slot =
      if slot = ⟨false, clustering, cell.column⟩ then
        some (Cells.winner (contents.cell? slot) cell)
      else contents.cell? slot := by
  obtain ⟨isStatic, placed, column⟩ := slot
  unfold cell?
  rw [getD_rows_writeRow]
  cases isStatic with
  | true => rfl
  | false =>
      dsimp only
      by_cases same : clustering = placed
      · subst same
        rw [if_pos rfl, Cells.getElem?_reconcile]
        by_cases own : column = cell.column
        · subst own
          simp
        · simp [own]
      · rw [if_neg same]
        simp [Ne.symm same]

/-- A cell that is written to the static row wins its slot unless an older one is newer. -/
theorem cell?_writeStatic (contents : Contents) (cell : Cell) (slot : Slot) :
    (contents.writeStatic cell).cell? slot =
      if slot = ⟨true, [], cell.column⟩ then some (Cells.winner (contents.cell? slot) cell)
      else contents.cell? slot := by
  obtain ⟨isStatic, placed, column⟩ := slot
  unfold cell? writeStatic
  cases isStatic with
  | false => simp
  | true =>
      dsimp only
      by_cases same : placed = []
      · subst same
        rw [Cells.getElem?_reconcile]
        by_cases own : column = cell.column
        · subst own
          simp
        · simp [own]
      · simp [same]

theorem cell?_delete (contents : Contents) (deletion : Deletion) (slot : Slot) :
    (contents.delete deletion).cell? slot = contents.cell? slot := by
  unfold delete
  split
  · split <;> rfl
  · rfl

theorem isFiled_empty : IsFiled {} where
  static := Cells.isFiled_empty
  rows clustering := by
    rw [Std.TreeMap.getD_emptyc]
    exact Cells.isFiled_empty

theorem IsFiled.writeRow {contents : Contents} (filed : contents.IsFiled) (clustering : Clustering)
    (cell : Cell) : (contents.writeRow clustering cell).IsFiled where
  static := filed.static
  rows other := by
    rw [getD_rows_writeRow]
    split
    · exact (filed.rows clustering).reconcile cell
    · exact filed.rows other

theorem IsFiled.writeStatic {contents : Contents} (filed : contents.IsFiled) (cell : Cell) :
    (contents.writeStatic cell).IsFiled where
  static := filed.static.reconcile cell
  rows := filed.rows

/-- Contents of which the rows have no clustering, no range was deleted, and every deletion is one. -/
structure IsPlain (contents : Contents) : Prop where
  filed : contents.IsFiled
  ranges : contents.ranges = []
  rows : ∀ (clustering : Clustering) (cells : Cells), contents.rows[clustering]? = some cells →
    clustering = []
  marked : ∀ deletion, contents.deletion = some deletion → deletion.isLive = false

theorem isPlain_empty : IsPlain {} where
  filed := isFiled_empty
  ranges := rfl
  rows clustering cells held := by
    rw [Std.TreeMap.getElem?_emptyc] at held
    cases held
  marked := nofun

namespace IsPlain

variable {contents : Contents}

theorem writeRow (plain : contents.IsPlain) (cell : Cell) : (contents.writeRow [] cell).IsPlain where
  filed := plain.filed.writeRow [] cell
  ranges := plain.ranges
  rows clustering cells held := by
    rw [Contents.writeRow, Std.TreeMap.getElem?_insert] at held
    by_cases same : compare [] clustering = .eq
    · exact (Std.LawfulEqOrd.eq_of_compare same).symm
    · rw [if_neg same] at held
      exact plain.rows clustering cells held
  marked := plain.marked

theorem writeStatic (plain : contents.IsPlain) (cell : Cell) : (contents.writeStatic cell).IsPlain where
  filed := plain.filed.writeStatic cell
  ranges := plain.ranges
  rows := plain.rows
  marked := plain.marked

theorem delete (plain : contents.IsPlain) {deletion : Deletion} (marks : deletion.isLive = false) :
    (contents.delete deletion).IsPlain := by
  have replaced : IsPlain { contents with deletion := some deletion } :=
    ⟨⟨plain.filed.static, plain.filed.rows⟩, plain.ranges, plain.rows, fun _ same => by
      cases same
      exact marks⟩
  unfold Contents.delete
  split
  · split
    · exact plain
    · exact replaced
  · exact replaced

/-- The partition of plain contents has the row without a clustering, or no element at all. -/
theorem length_elements_le (plain : contents.IsPlain) (key : Key) :
    (contents.partition key).elements.length ≤ 1 := by
  have length : (contents.partition key).elements.length = contents.rows.toList.length := by
    show (contents.elements.mergeSort Element.notAfter).length = _
    rw [List.length_mergeSort, elements, plain.ranges]
    simp
  have single : ∀ row ∈ contents.rows.toList, row.1 = [] := fun row member =>
    plain.rows row.1 row.2 (Std.TreeMap.mem_toList_iff_getElem?_eq_some.1 member)
  have ordered := Std.TreeMap.ordered_keys_toList (t := contents.rows)
  rw [length]
  generalize contents.rows.toList = rows at single ordered
  rcases rows with - | ⟨first, - | ⟨second, rest⟩⟩
  · exact Nat.zero_le _
  · exact Nat.le_refl _
  · have below := List.rel_of_pairwise_cons ordered List.mem_cons_self
    rw [single first List.mem_cons_self,
      single second (List.mem_cons_of_mem _ List.mem_cons_self)] at below
    exact absurd below (by decide)

/-- The partition of plain contents is deleted exactly if they are. -/
theorem isLive_iff (plain : contents.IsPlain) (key : Key) :
    (contents.partition key).deletion.isLive = true ↔ contents.deletion = none := by
  unfold partition
  dsimp only
  cases held : contents.deletion with
  | none => exact ⟨fun _ => rfl, fun _ => rfl⟩
  | some deletion =>
      rw [Option.getD_some, plain.marked deletion held]
      exact ⟨nofun, nofun⟩

/-- A deletion is part of the partition. -/
theorem isEmpty_delete (plain : contents.IsPlain) {deletion : Deletion}
    (marks : deletion.isLive = false) (key : Key) :
    ((contents.delete deletion).partition key).isEmpty = false := by
  have held : (contents.delete deletion).deletion ≠ none := by
    unfold Contents.delete
    split
    · rename_i old before
      split
      · rw [before]
        exact nofun
      · exact nofun
    · exact nofun
  have dead : ((contents.delete deletion).partition key).deletion.isLive = false :=
    Bool.eq_false_iff.2 fun live => held (((plain.delete marks).isLive_iff key).1 live)
  rw [Partition.isEmpty, dead]
  rfl

end IsPlain

/-- A row that was written is part of the partition. -/
theorem isEmpty_writeRow (contents : Contents) (clustering : Clustering) (cell : Cell) (key : Key) :
    ((contents.writeRow clustering cell).partition key).isEmpty = false := by
  have held : (clustering, (contents.rows.getD clustering ∅).reconcile cell) ∈
      (contents.writeRow clustering cell).rows.toList := by
    rw [Std.TreeMap.mem_toList_iff_getElem?_eq_some, writeRow, Std.TreeMap.getElem?_insert_self]
  have shown : ((contents.writeRow clustering cell).partition key).elements ≠ [] :=
    List.ne_nil_of_mem
      (List.mem_mergeSort.2 (List.mem_append_right _ (List.mem_map_of_mem held)))
  simp [Partition.isEmpty, shown]

/-- A static row that was written is part of the partition. -/
theorem isEmpty_writeStatic (contents : Contents) (cell : Cell) (key : Key) :
    ((contents.writeStatic cell).partition key).isEmpty = false := by
  have found : (contents.staticCells.reconcile cell)[cell.column]? =
      some (Cells.winner contents.staticCells[cell.column]? cell) := by
    rw [Cells.getElem?_reconcile, if_pos rfl]
  have full : (contents.staticCells.reconcile cell).isEmpty = false := by
    rw [Bool.eq_false_iff]
    intro empty
    rw [Std.TreeMap.getElem?_of_isEmpty empty] at found
    cases found
  have shown : (Row.ofCells [] .live (contents.staticCells.reconcile cell).toList).cells ≠ [] :=
    List.ne_nil_of_mem (List.mem_mergeSort.2 (Cells.mem_toList_iff.2 ⟨_, found⟩))
  simp [Partition.isEmpty, partition, writeStatic, full, Row.isEmpty, shown]

/-- The buffer shows no empty static row. -/
theorem normalized_partition (contents : Contents) (key : Key) :
    (contents.partition key).normalized = contents.partition key := by
  have kept : (contents.partition key).staticRow.filter (fun row => !row.isEmpty) =
      (contents.partition key).staticRow := by
    unfold partition
    dsimp only
    split
    · rfl
    · rename_i full
      have shown : (Row.ofCells [] .live contents.staticCells.toList).cells.isEmpty = false := by
        rw [Row.ofCells, (List.mergeSort_perm _ _).isEmpty_eq, Cells.toList, List.isEmpty_map,
          Std.TreeMap.isEmpty_toList]
        exact Bool.eq_false_iff.2 full
      simp [Row.isEmpty, shown]
  rw [Partition.normalized, kept]

end Contents

namespace Memtable

variable (memtable : Memtable) (key : Key)

theorem partitions_put (clustering : Clustering) (cell : Cell) :
    (memtable.put key clustering cell).partitions =
      memtable.partitions.insert key ((memtable.contents key).writeRow clustering cell) := rfl

theorem partitions_putStatic (cell : Cell) :
    (memtable.putStatic key cell).partitions =
      memtable.partitions.insert key ((memtable.contents key).writeStatic cell) := rfl

theorem partitions_deletePartition (deletion : Deletion) :
    (memtable.deletePartition key deletion).partitions =
      memtable.partitions.insert key ((memtable.contents key).delete deletion) := rfl

theorem partitions_deleteRange (range : DeletedRange) :
    (memtable.deleteRange key range).partitions =
      memtable.partitions.insert key
        { memtable.contents key with ranges := (memtable.contents key).ranges ++ [range] } := rfl

theorem contents_of_isEmpty {memtable : Memtable} (empty : memtable.isEmpty = true) :
    memtable.contents key = {} := Std.TreeMap.getD_of_isEmpty empty

theorem contents_empty : ({} : Memtable).contents key = {} :=
  contents_of_isEmpty key Std.TreeMap.isEmpty_emptyc

variable {memtable key}

theorem mem_toList_iff {partition : Partition} :
    partition ∈ memtable.toList ↔ ∃ (key : Key) (contents : Contents),
      memtable.partitions[key]? = some contents ∧ contents.partition key = partition := by
  rw [toList, List.mem_map]
  constructor
  · rintro ⟨⟨key, contents⟩, member, rfl⟩
    exact ⟨key, contents, Std.TreeMap.mem_toList_iff_getElem?_eq_some.1 member, rfl⟩
  · rintro ⟨key, contents, held, rfl⟩
    exact ⟨(key, contents), Std.TreeMap.mem_toList_iff_getElem?_eq_some.2 held, rfl⟩

/-- The keys of the partitions are those that were touched. -/
theorem mem_keys_iff : key ∈ memtable.toList.map Partition.key ↔ key ∈ memtable.partitions := by
  rw [List.mem_map, Std.TreeMap.mem_iff_isSome_getElem?, Option.isSome_iff_exists]
  constructor
  · rintro ⟨partition, member, rfl⟩
    obtain ⟨key, contents, held, rfl⟩ := mem_toList_iff.1 member
    exact ⟨contents, held⟩
  · rintro ⟨contents, held⟩
    exact ⟨contents.partition key, mem_toList_iff.2 ⟨key, contents, held, rfl⟩, rfl⟩

/-- The keys of the partitions ascend. -/
theorem pairwise_keys (memtable : Memtable) :
    (memtable.toList.map Partition.key).Pairwise fun left right => compare left right = .lt := by
  rw [toList, List.map_map, List.pairwise_map]
  exact Std.TreeMap.ordered_keys_toList

theorem partition?_eq_some_iff {partition : Partition} :
    memtable.partition? key = some partition ↔ partition ∈ memtable.toList ∧ partition.key = key := by
  rw [mem_toList_iff, partition?, Option.map_eq_some_iff]
  constructor
  · rintro ⟨contents, held, rfl⟩
    exact ⟨⟨key, contents, held, rfl⟩, rfl⟩
  · rintro ⟨⟨_, contents, held, rfl⟩, rfl⟩
    exact ⟨contents, held, rfl⟩

/-- Among chosen partitions in order the one of a key is found if it was chosen. -/
theorem find?_filter_toList (memtable : Memtable) (chosen : Partition → Bool) (key : Key) :
    ((memtable.toList.filter chosen).find? fun partition => partition.key = key) =
      (memtable.partition? key).filter chosen := by
  cases found : (memtable.toList.filter chosen).find? fun partition => partition.key = key with
  | some partition =>
      have same := List.find?_some found
      obtain ⟨member, picked⟩ := List.mem_filter.1 (List.mem_of_find?_eq_some found)
      rw [partition?_eq_some_iff.2 ⟨member, of_decide_eq_true same⟩, Option.filter_some,
        if_pos picked]
  | none =>
      symm
      rw [Option.filter_eq_none_iff]
      intro partition held picked
      obtain ⟨member, same⟩ := partition?_eq_some_iff.1 held
      exact List.find?_eq_none.1 found partition (List.mem_filter.2 ⟨member, picked⟩)
        (decide_eq_true same)

/-- Among the partitions in order the one of a key is found. -/
theorem find?_toList (memtable : Memtable) (key : Key) :
    (memtable.toList.find? fun partition => partition.key = key) = memtable.partition? key := by
  have all := memtable.find?_filter_toList (fun _ => true) key
  rw [List.filter_eq_self.2 fun _ _ => rfl] at all
  rw [all]
  cases memtable.partition? key <;> rfl

theorem contents_of_partitions {contents : Contents} (held : memtable.partitions[key]? = some contents) :
    memtable.contents key = contents := by
  rw [Memtable.contents, Std.TreeMap.getD_eq_getD_getElem?, held]
  rfl

/-- The cells of a key in the buffer are those of its contents. -/
theorem mem_slots_partition? (filed : (memtable.contents key).IsFiled) {slot : Slot} {cell : Cell} :
    (slot, cell) ∈ (memtable.partition? key).toList.flatMap Partition.slots ↔
      (memtable.contents key).cell? slot = some cell := by
  cases held : memtable.partitions[key]? with
  | none =>
      have empty : memtable.contents key = {} := by
        rw [contents, Std.TreeMap.getD_eq_getD_getElem?, held]
        rfl
      rw [partition?, held, empty]
      simp [Contents.cell?]
  | some contents =>
      rw [contents_of_partitions held] at filed ⊢
      rw [partition?, held, Option.map_some, Option.toList_some, List.flatMap_singleton]
      exact filed.mem_slots key

/-- Every key has plain contents, and no partition is empty. -/
structure IsPlain (memtable : Memtable) : Prop where
  contents : ∀ key, (memtable.contents key).IsPlain
  full : ∀ (key : Key) (contents : Contents), memtable.partitions[key]? = some contents →
    (contents.partition key).isEmpty = false

theorem isPlain_empty : IsPlain {} where
  contents key := by
    rw [contents_empty]
    exact Contents.isPlain_empty
  full key contents held := by
    rw [Std.TreeMap.getElem?_emptyc] at held
    cases held

/-- The contents of the keys after those of one key were replaced. -/
theorem contents_of_insert {later : Memtable} {next : Contents}
    (set : later.partitions = memtable.partitions.insert key next) (other : Key) :
    later.contents other = if key = other then next else memtable.contents other := by
  rw [contents, set, Std.TreeMap.getD_insert]
  simp only [Std.LawfulEqOrd.compare_eq_iff_eq]
  rfl

theorem isEmpty_of_insert {later : Memtable} {next : Contents}
    (set : later.partitions = memtable.partitions.insert key next) : later.isEmpty = false := by
  rw [isEmpty, set, Std.TreeMap.isEmpty_insert]

theorem partition?_of_insert {later : Memtable} {next : Contents}
    (set : later.partitions = memtable.partitions.insert key next) {other : Key}
    (differs : other ≠ key) : later.partition? other = memtable.partition? other := by
  have unequal : compare key other ≠ .eq := fun same =>
    differs (Std.LawfulEqOrd.eq_of_compare same).symm
  rw [partition?, set, Std.TreeMap.getElem?_insert, if_neg unequal]
  rfl

namespace IsPlain

theorem insert (plain : memtable.IsPlain) {later : Memtable} {next : Contents}
    (set : later.partitions = memtable.partitions.insert key next) (plain' : next.IsPlain)
    (full : (next.partition key).isEmpty = false) : later.IsPlain where
  contents other := by
    rw [contents_of_insert set]
    split
    · exact plain'
    · exact plain.contents other
  full other contents held := by
    rw [set, Std.TreeMap.getElem?_insert] at held
    by_cases same : compare key other = .eq
    · rw [if_pos same] at held
      cases held
      rw [← Std.LawfulEqOrd.eq_of_compare same]
      exact full
    · rw [if_neg same] at held
      exact plain.full other contents held

theorem put (plain : memtable.IsPlain) (key : Key) (cell : Cell) : (memtable.put key [] cell).IsPlain :=
  plain.insert (memtable.partitions_put key [] cell) ((plain.contents key).writeRow _)
    (Contents.isEmpty_writeRow _ _ _ key)

theorem putStatic (plain : memtable.IsPlain) (key : Key) (cell : Cell) :
    (memtable.putStatic key cell).IsPlain :=
  plain.insert (memtable.partitions_putStatic key cell) ((plain.contents key).writeStatic _)
    (Contents.isEmpty_writeStatic _ _ key)

theorem deletePartition (plain : memtable.IsPlain) (key : Key) {deletion : Deletion}
    (marks : deletion.isLive = false) : (memtable.deletePartition key deletion).IsPlain :=
  plain.insert (memtable.partitions_deletePartition key deletion) ((plain.contents key).delete marks)
    ((plain.contents key).isEmpty_delete marks key)

theorem isEmpty (plain : memtable.IsPlain) {partition : Partition}
    (member : partition ∈ memtable.toList) : partition.isEmpty = false := by
  obtain ⟨key, contents, held, rfl⟩ := mem_toList_iff.1 member
  exact plain.full key contents held

theorem length_elements_le (plain : memtable.IsPlain) {partition : Partition}
    (member : partition ∈ memtable.toList) : partition.elements.length ≤ 1 := by
  obtain ⟨key, contents, held, rfl⟩ := mem_toList_iff.1 member
  have plain' := plain.contents key
  rw [contents_of_partitions held] at plain'
  exact plain'.length_elements_le key

end IsPlain

end Memtable

end SortedTable

import SortedTable.Proofs.Memtable
import SortedTable.Proofs.Reader
import SortedTable.Proofs.Session.Merge

namespace SortedTable

/-- What tables with these partitions have under a key, the oldest first. -/
def storedUnder {blockSize : UInt64} (shelves : List (List (Placed blockSize))) (key : Key) :
    List Partition :=
  shelves.filterMap fun placed => Placed.lookup placed key

namespace Session

variable {session : Session} {disk : Disk}

/-- The sources of a key are what the tables serve and what the buffer holds. -/
theorem sources_eq {blockSize : UInt64} {shelves : List (List (Placed blockSize))}
    (serves : List.Forall₂ (fun table placed => table.Serves disk placed) session.tables shelves)
    (key : Key) : session.sources disk key =
      .ok (storedUnder shelves key ++ (session.memtable.partition? key).toList) := by
  have found : (session.tables.mapM fun table =>
      (table.partition? disk key).mapError (SessionError.ofTable .table)) =
        .ok (shelves.map fun placed => Placed.lookup placed key) := by
    rw [Except.mapM_eq_ok_iff, List.forall₂_map_right_iff]
    exact serves.imp fun table placed served => Except.mapError_eq_ok_iff.2 (served.partition?_eq key)
  rw [sources, found, Except.ok_bind, List.filterMap_map]
  rfl

theorem mem_keys_iff {key : Key} : key ∈ session.keys ↔
    key ∈ session.tables.flatMap Reader.keys ∨ key ∈ session.memtable.partitions := by
  rw [keys, Std.TreeSet.mem_toList, Std.TreeSet.mem_ofList, List.contains_iff_mem, List.mem_append,
    Memtable.mem_keys_iff]

/-- The keys ascend strictly. -/
theorem pairwise_keys (session : Session) :
    session.keys.Pairwise fun left right => compare left right = .lt :=
  Std.TreeSet.ordered_toList

end Session

theorem flatMap_slots_append {left right : List Partition} {slot : Slot} {cell : Cell} :
    (slot, cell) ∈ (left ++ right).flatMap Partition.slots ↔
      (slot, cell) ∈ left.flatMap Partition.slots ∨ (slot, cell) ∈ right.flatMap Partition.slots := by
  rw [List.flatMap_append, List.mem_append]

namespace Memtable

variable {memtable : Memtable} {key : Key}

/-- The partition of a key in the buffer was deleted exactly when its contents were. -/
theorem isDeletedAt_partition? (plain : (memtable.contents key).IsPlain) {time : Int64} :
    IsDeletedAt (memtable.partition? key).toList time ↔
      ∃ deletion, (memtable.contents key).deletion = some deletion ∧ deletion.markedAt = time := by
  cases held : memtable.partitions[key]? with
  | none =>
      have empty : memtable.contents key = {} := by
        rw [contents, Std.TreeMap.getD_eq_getD_getElem?, held]
        rfl
      rw [partition?, held, empty]
      simp [IsDeletedAt]
  | some contents =>
      rw [contents_of_partitions held] at plain ⊢
      rw [partition?, held, Option.map_some, Option.toList_some]
      unfold IsDeletedAt
      simp only [List.mem_singleton, exists_eq_left]
      rw [← Bool.not_eq_true, plain.isLive_iff]
      cases marked : contents.deletion with
      | none => simp
      | some deletion => simp [Contents.partition, marked]

/-- A table with the partitions of the buffer finds under every key what the buffer holds. -/
theorem lookup_eq {blockSize : UInt64} {placed : List (Placed blockSize)}
    (same : (placed.map fun one => one.partition) = memtable.toList) (key : Key) :
    Placed.lookup placed key = memtable.partition? key := by
  have looked : Placed.lookup placed key =
      (memtable.partition? key).map Partition.normalized := by
    rw [← find?_toList, ← same, List.find?_map, Option.map_map]
    rfl
  rw [looked, partition?, Option.map_map]
  exact congrArg (Option.map · _) (funext fun contents => contents.normalized_partition key)

end Memtable

/-- The keys of a session are the same once the partitions of the buffer are in a table. -/
theorem Session.mem_keys_flushed {blockSize : UInt64} {placed : List (Placed blockSize)}
    {session : Session} {reader : Reader} {disk : Disk} (serves : reader.Serves disk placed)
    (same : (placed.map fun one => one.partition) = session.memtable.toList) (generation : UInt64)
    {key : Key} :
    key ∈ Session.keys { session with
        tables := session.tables ++ [reader]
        nextGeneration := generation
        memtable := {} } ↔ key ∈ session.keys := by
  have keys : reader.keys = session.memtable.toList.map Partition.key := by
    rw [serves.keys, ← same, List.map_map]
    rfl
  have none' : key ∉ ({} : Memtable).partitions := Std.TreeMap.not_mem_emptyc
  rw [mem_keys_iff, mem_keys_iff, List.flatMap_append, List.mem_append, List.flatMap_singleton, keys,
    Memtable.mem_keys_iff, or_iff_left none']

namespace Represents

variable {front : List Partition} {memtable later : Memtable} {key : Key} {next : Contents}
  {written : Written} {last time : Int64}

/-- A cell with a new time that is written to the buffer is the last write of its slot. -/
theorem insert_write
    (represents : Represents (front ++ (memtable.partition? key).toList) written last)
    (plain : memtable.IsPlain) (plain' : later.IsPlain)
    (set : later.partitions = memtable.partitions.insert key next) (above : last < time)
    {slot : Slot} {value : Bytes}
    (cells : ∀ other, next.cell? other =
      if other = slot then
        some (Cells.winner ((memtable.contents key).cell? other) ⟨slot.column, time, some value⟩)
      else (memtable.contents key).cell? other)
    (same : next.deletion = (memtable.contents key).deletion) :
    Represents (front ++ (later.partition? key).toList)
      (Function.update written slot (some (value, time))) time := by
  have contents : later.contents key = next := by
    rw [Memtable.contents_of_insert set, if_pos rfl]
  have before {other : Slot} {cell : Cell} := @flatMap_slots_append front
    (memtable.partition? key).toList other cell
  have after {other : Slot} {cell : Cell} := @flatMap_slots_append front
    (later.partition? key).toList other cell
  simp only [Memtable.mem_slots_partition? (plain.contents key).filed] at before
  simp only [Memtable.mem_slots_partition? (plain'.contents key).filed, contents] at after
  have won : next.cell? slot = some ⟨slot.column, time, some value⟩ := by
    rw [cells, if_pos rfl]
    rcases Cells.winner_eq ((memtable.contents key).cell? slot) ⟨slot.column, time, some value⟩ with
      new | old
    · rw [new]
    · have newer := (Cells.le_winner ((memtable.contents key).cell? slot)
        ⟨slot.column, time, some value⟩).1
      have notAbove := represents.cells slot _ (before.2 (.inr old))
      rw [Int64.le_iff_toInt_le] at newer notAbove
      rw [Int64.lt_iff_toInt_lt] at above
      dsimp only at newer
      omega
  apply represents.write above
  · exact after.2 (.inr won)
  · intro other cell member
    rcases after.1 member with stored | held
    · exact .inl (before.2 (.inl stored))
    · by_cases own : other = slot
      · rw [own, won] at held
        exact .inr ⟨own, (Option.some.inj held).symm⟩
      · rw [cells, if_neg own] at held
        exact .inl (before.2 (.inr held))
  · intro other cell own member
    rcases before.1 member with stored | held
    · exact after.2 (.inl stored)
    · exact after.2 (.inr (by rw [cells, if_neg own, held]))
  · intro deleted
    rw [isDeletedAt_append, isDeletedAt_append,
      Memtable.isDeletedAt_partition? (plain'.contents key),
      Memtable.isDeletedAt_partition? (plain.contents key), contents, same]

/-- A deletion with a new time in the buffer hides all that was written before. -/
theorem insert_delete
    (represents : Represents (front ++ (memtable.partition? key).toList) written last)
    (plain : memtable.IsPlain) (plain' : later.IsPlain) {deletion : Deletion}
    (set : later.partitions =
      memtable.partitions.insert key ((memtable.contents key).delete deletion))
    (above : last < deletion.markedAt) :
    Represents (front ++ (later.partition? key).toList) (fun _ => none) deletion.markedAt := by
  have contents : later.contents key = (memtable.contents key).delete deletion := by
    rw [Memtable.contents_of_insert set, if_pos rfl]
  have before {deleted : Int64} := @isDeletedAt_append front (memtable.partition? key).toList deleted
  have after {deleted : Int64} := @isDeletedAt_append front (later.partition? key).toList deleted
  simp only [Memtable.isDeletedAt_partition? (plain.contents key)] at before
  simp only [Memtable.isDeletedAt_partition? (plain'.contents key), contents] at after
  have marked : ((memtable.contents key).delete deletion).deletion = some deletion := by
    unfold Contents.delete
    split
    · rename_i old held
      have notAbove := represents.deletions old.markedAt (before.2 (.inr ⟨old, held, rfl⟩))
      rw [Int64.le_iff_toInt_le] at notAbove
      rw [Int64.lt_iff_toInt_lt] at above
      rw [if_neg (by rw [Int64.le_iff_toInt_le]; omega)]
    · rfl
  apply represents.delete above
  · exact after.2 (.inr ⟨deletion, marked, rfl⟩)
  · intro slot cell
    rw [flatMap_slots_append, flatMap_slots_append,
      Memtable.mem_slots_partition? (plain'.contents key).filed,
      Memtable.mem_slots_partition? (plain.contents key).filed, contents, Contents.cell?_delete]
  · intro deleted present
    rcases after.1 present with stored | ⟨found, held, same⟩
    · exact .inl (before.2 (.inl stored))
    · rw [marked] at held
      cases held
      exact .inr same.symm

/-- Another key is represented as before, also at a later time. -/
theorem insert_of_ne
    (represents : Represents (front ++ (memtable.partition? key).toList) written last)
    {changed : Key} (set : later.partitions = memtable.partitions.insert changed next)
    (differs : key ≠ changed) (notBelow : last ≤ time) :
    Represents (front ++ (later.partition? key).toList) written time := by
  rw [Memtable.partition?_of_insert set differs]
  exact represents.congr (fun _ _ => .rfl) (fun _ => .rfl) notBelow

/-- What was in the buffer is represented all the same once it is in the newest table. -/
theorem flush {blockSize : UInt64} {shelves : List (List (Placed blockSize))}
    {placed : List (Placed blockSize)}
    (represents : Represents (storedUnder shelves key ++ (memtable.partition? key).toList) written
      last)
    (same : (placed.map fun one => one.partition) = memtable.toList) :
    Represents (storedUnder (shelves ++ [placed]) key ++
      (({} : Memtable).partition? key).toList) written last := by
  have looked := Memtable.lookup_eq same key
  have empty : ({} : Memtable).partition? key = none := by
    rw [Memtable.partition?, Std.TreeMap.getElem?_emptyc, Option.map_none]
  have sources : storedUnder (shelves ++ [placed]) key ++ (({} : Memtable).partition? key).toList =
      storedUnder shelves key ++ (memtable.partition? key).toList := by
    rw [empty, Option.toList_none, List.append_nil, storedUnder, List.filterMap_append, ← looked]
    cases found : Placed.lookup placed key with
    | none => simp [storedUnder, found]
    | some partition => simp [storedUnder, found]
  rw [sources]
  exact represents

end Represents

end SortedTable

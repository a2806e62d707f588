import Mathlib.Algebra.BigOperators.Group.List.Basic
import Mathlib.Algebra.Group.Idempotent
import Mathlib.Data.List.Dedup
import SortedTable.Proofs.Session.Sources

namespace SortedTable

/-- A product does not change if elements that are repeated side by side are taken once. -/
theorem prod_map_dedup {α μ : Type*} [DecidableEq α] [Monoid μ] {notAfter : α → α → Prop}
    (antisymm : ∀ left right, notAfter left right → notAfter right left → left = right)
    (value : α → μ) (idempotent : ∀ element, IsIdempotentElem (value element)) {list : List α}
    (ordered : list.Pairwise notAfter) : (list.dedup.map value).prod = (list.map value).prod := by
  induction list with
  | nil => rfl
  | cons first rest ih =>
      obtain ⟨before, ordered'⟩ := List.pairwise_cons.1 ordered
      by_cases again : first ∈ rest
      · rw [List.dedup_cons_of_mem again, ih ordered', List.map_cons, List.prod_cons]
        cases rest with
        | nil => cases again
        | cons second rest =>
            have same : first = second := by
              rcases List.mem_cons.1 again with same | later
              · exact same
              · exact antisymm _ _ (before second List.mem_cons_self)
                  ((List.pairwise_cons.1 ordered').1 first later)
            subst same
            rw [List.map_cons, List.prod_cons, ← mul_assoc, (idempotent first).eq]
      · rw [List.dedup_cons_of_notMem again, List.map_cons, List.prod_cons, ih ordered',
          List.map_cons, List.prod_cons]

/-- Lists in one order with the same elements have the same product, however often they repeat one. -/
theorem prod_map_eq_of_mem_iff {α μ : Type*} [Monoid μ] {notAfter : α → α → Prop}
    (antisymm : ∀ left right, notAfter left right → notAfter right left → left = right)
    (value : α → μ) (idempotent : ∀ element, IsIdempotentElem (value element)) {list other : List α}
    (ordered : list.Pairwise notAfter) (ordered' : other.Pairwise notAfter)
    (same : ∀ element, element ∈ list ↔ element ∈ other) :
    (list.map value).prod = (other.map value).prod := by
  classical
  have permuted : list.dedup.Perm other.dedup := by
    rw [List.perm_ext_iff_of_nodup list.nodup_dedup other.nodup_dedup]
    intro element
    rw [List.mem_dedup, List.mem_dedup, same]
  have equal : list.dedup = other.dedup :=
    permuted.eq_of_pairwise (fun left right _ _ => antisymm left right)
      (ordered.sublist list.dedup_sublist) (ordered'.sublist other.dedup_sublist)
  rw [← prod_map_dedup antisymm value idempotent ordered, equal,
    prod_map_dedup antisymm value idempotent ordered']

namespace Cells

theorem winner_of_le {first second : Cell} (notNewer : second.timestamp ≤ first.timestamp) :
    winner (some first) second = first := if_pos notNewer

theorem winner_of_not_le {first second : Cell} (newer : ¬second.timestamp ≤ first.timestamp) :
    winner (some first) second = second := if_neg newer

/-- The newest of at most two cells; at equal times the first one. -/
def newest (first : Option Cell) : Option Cell → Option Cell
  | none => first
  | some second => some (winner first second)

theorem none_newest (second : Option Cell) : newest none second = second := by
  cases second <;> rfl

theorem newest_self (cell : Option Cell) : newest cell cell = cell := by
  cases cell with
  | none => rfl
  | some cell => exact congrArg some (winner_of_le (Int64.le_refl _))

/-- Of three cells the same one wins, whichever two meet first. -/
theorem winner_assoc (first second third : Cell) :
    winner (some (winner (some first) second)) third =
      winner (some first) (winner (some second) third) := by
  by_cases order : second.timestamp ≤ first.timestamp
  · rw [winner_of_le order]
    by_cases order' : third.timestamp ≤ second.timestamp
    · rw [winner_of_le order', winner_of_le order, winner_of_le (Int64.le_trans order' order)]
    · rw [winner_of_not_le order']
  · rw [winner_of_not_le order]
    by_cases order' : third.timestamp ≤ second.timestamp
    · rw [winner_of_le order', winner_of_not_le order]
    · have newest : ¬third.timestamp ≤ first.timestamp := by
        rw [Int64.le_iff_toInt_le] at order order' ⊢
        omega
      rw [winner_of_not_le order', winner_of_not_le newest]

theorem newest_assoc (first second third : Option Cell) :
    newest (newest first second) third = newest first (newest second third) := by
  cases third with
  | none => rfl
  | some third =>
      cases second with
      | none => rfl
      | some second =>
          cases first with
          | none => rfl
          | some first => exact congrArg some (winner_assoc first second third)

end Cells

/-- Cells that are merged in win or lose against what was there as their winners do. -/
theorem Winners.getElem?_mergeAll (winners : Winners) (slots : List (Slot × Cell)) (slot : Slot) :
    (winners.mergeAll slots)[slot]? =
      Cells.newest winners[slot]? ((∅ : Winners).mergeAll slots)[slot]? := by
  induction slots generalizing winners with
  | nil =>
      change winners[slot]? = Cells.newest winners[slot]? (∅ : Winners)[slot]?
      rw [Std.TreeMap.getElem?_emptyc]
      rfl
  | cons first rest ih =>
      obtain ⟨other, cell⟩ := first
      have step : (winners.merge other cell)[slot]? =
          Cells.newest winners[slot]? ((∅ : Winners).merge other cell)[slot]? := by
        rw [getElem?_merge, getElem?_merge, Std.TreeMap.getElem?_emptyc]
        by_cases same : other = slot
        · rw [if_pos same, if_pos same, same]
          rfl
        · rw [if_neg same, if_neg same]
          rfl
      rw [mergeAll_cons, mergeAll_cons, ih, ih (Winners.merge ∅ other cell), step,
        Cells.newest_assoc]

/-- The later of at most two times. -/
def latest (first : Option Int64) : Option Int64 → Option Int64
  | none => first
  | some second => some (first.elim second (max · second))

theorem none_latest (second : Option Int64) : latest none second = second := by
  cases second <;> rfl

theorem toInt_max (left right : Int64) : (max left right).toInt = max left.toInt right.toInt := by
  have same : max left right = if left ≤ right then right else left := rfl
  rw [same]
  split <;> rename_i order <;> rw [Int64.le_iff_toInt_le] at order <;> omega

theorem latest_self (time : Option Int64) : latest time time = time := by
  cases time with
  | none => rfl
  | some time =>
      have same : max time time = time := Int64.toInt_inj.1 (by rw [toInt_max]; omega)
      exact congrArg some same

theorem latest_assoc (first second third : Option Int64) :
    latest (latest first second) third = latest first (latest second third) := by
  cases first with
  | none => rw [none_latest, none_latest]
  | some first =>
      cases second with
      | none => rw [none_latest, latest]
      | some second =>
          cases third with
          | none => rfl
          | some third =>
              have same : max (max first second) third = max first (max second third) := by
                rw [← Int64.toInt_inj]
                simp only [toInt_max, Int.max_assoc]
              simp only [latest, Option.elim_some, same]

/-- What sources of a key amount to: the cell that wins each slot, and the last deletion. -/
@[ext]
structure Standing where
  cells : Slot → Option Cell
  deletedAt : Option Int64

namespace Standing

/-- The standing of two sources, the older one on the left. -/
instance : Mul Standing :=
  ⟨fun older newer => ⟨fun slot => Cells.newest (older.cells slot) (newer.cells slot),
    latest older.deletedAt newer.deletedAt⟩⟩

/-- The standing of no source. -/
instance : One Standing := ⟨⟨fun _ => none, none⟩⟩

theorem cells_mul (older newer : Standing) (slot : Slot) :
    (older * newer).cells slot = Cells.newest (older.cells slot) (newer.cells slot) := rfl

theorem deletedAt_mul (older newer : Standing) :
    (older * newer).deletedAt = latest older.deletedAt newer.deletedAt := rfl

instance : Monoid Standing where
  mul_assoc first second third :=
    Standing.ext (funext fun _ => Cells.newest_assoc _ _ _) (latest_assoc _ _ _)
  one_mul standing := Standing.ext (funext fun _ => Cells.none_newest _) (none_latest _)
  mul_one _ := rfl

theorem isIdempotentElem (standing : Standing) : IsIdempotentElem standing :=
  Standing.ext (funext fun _ => Cells.newest_self _) (latest_self _)

/-- The standing after a single write. -/
def write (slot : Slot) (cell : Cell) : Standing :=
  ⟨fun other => if other = slot then some cell else none, none⟩

/-- The standing after a single deletion. -/
def deletion (time : Int64) : Standing := ⟨fun _ => none, some time⟩

theorem cells_mul_write (standing : Standing) (slot other : Slot) (cell : Cell) :
    (standing * write slot cell).cells other =
      if other = slot then some (Cells.winner (standing.cells other) cell)
      else standing.cells other := by
  rw [cells_mul, write]
  dsimp only
  by_cases same : other = slot
  · rw [if_pos same, if_pos same]
    rfl
  · rw [if_neg same, if_neg same]
    rfl

end Standing

/-- The standing of a partition alone. -/
def Partition.standing (partition : Partition) : Standing where
  cells slot := ((∅ : Winners).mergeAll partition.slots)[slot]?
  deletedAt := if partition.deletion.isLive then none else some partition.deletion.markedAt

/-- The standing of all sources, the oldest first. -/
def standingOf (sources : List Partition) : Standing := (sources.map Partition.standing).prod

theorem standingOf_append (older newer : List Partition) :
    standingOf (older ++ newer) = standingOf older * standingOf newer := by
  rw [standingOf, List.map_append, List.prod_append]
  rfl

theorem standingOf_singleton (source : Partition) : standingOf [source] = source.standing := by
  rw [standingOf, List.map_singleton, List.prod_singleton]

theorem standingOf_cons (source : Partition) (rest : List Partition) :
    standingOf (source :: rest) = source.standing * standingOf rest := by
  rw [standingOf, List.map_cons, List.prod_cons]
  rfl

/-- The winners among all cells are those of the standing. -/
theorem getElem?_winners (sources : List Partition) (slot : Slot) :
    ((∅ : Winners).mergeAll (sources.flatMap Partition.slots))[slot]? =
      (standingOf sources).cells slot := by
  induction sources with
  | nil => exact Std.TreeMap.getElem?_emptyc
  | cons source rest ih =>
      have both : (∅ : Winners).mergeAll (source.slots ++ rest.flatMap Partition.slots) =
          ((∅ : Winners).mergeAll source.slots).mergeAll (rest.flatMap Partition.slots) :=
        List.foldl_append
      rw [List.flatMap_cons, both, Winners.getElem?_mergeAll, ih, standingOf_cons]
      rfl

/-- The last deletion is that of the standing. -/
theorem deletedAt_eq (sources : List Partition) :
    deletedAt sources = (standingOf sources).deletedAt := by
  have folded (before : Option Int64) :
      (sources.filter fun source => !source.deletion.isLive).foldl
        (fun time source => some (time.elim source.deletion.markedAt (max · source.deletion.markedAt)))
        before = latest before (standingOf sources).deletedAt := by
    induction sources generalizing before with
    | nil => rfl
    | cons source rest ih =>
        rw [standingOf_cons, Standing.deletedAt_mul, ← latest_assoc, List.filter_cons]
        cases marked : source.deletion.isLive with
        | true =>
            simp only [Partition.standing, marked]
            exact ih before
        | false =>
            simp only [Partition.standing, marked]
            exact ih _
  rw [deletedAt, folded, none_latest]

/-- What is read of a key goes by the standing of its sources. -/
theorem mergedCells_congr {sources others : List Partition}
    (same : standingOf sources = standingOf others) : mergedCells sources = mergedCells others := by
  have winners : ((∅ : Winners).mergeAll (sources.flatMap Partition.slots)).Equiv
      ((∅ : Winners).mergeAll (others.flatMap Partition.slots)) :=
    .of_forall_constGet?_eq fun slot => by rw [getElem?_winners, getElem?_winners, same]
  unfold mergedCells
  dsimp only
  rw [winners.toList_eq, deletedAt_eq, deletedAt_eq, same]

namespace Contents

/-- The standing of what the buffer holds under a key. -/
def standing (contents : Contents) : Standing where
  cells := contents.cell?
  deletedAt := contents.deletion.map Deletion.markedAt

theorem standing_empty : ({} : Contents).standing = 1 := by
  refine Standing.ext (funext fun slot => ?_) rfl
  simp [standing, cell?, OfNat.ofNat, One.one]

/-- A partition of the buffer stands for what the buffer holds. -/
theorem IsPlain.standing_partition {contents : Contents} (plain : contents.IsPlain) (key : Key) :
    (contents.partition key).standing = contents.standing := by
  refine Standing.ext (funext fun slot => ?_) ?_
  · simp only [Partition.standing, standing]
    cases held : contents.cell? slot with
    | none =>
        rw [Option.eq_none_iff_forall_ne_some]
        intro cell won
        have member := (plain.filed.mem_slots key).1 (Winners.mem_of_won won)
        rw [held] at member
        cases member
    | some cell =>
        obtain ⟨winner, won, -⟩ :=
          Winners.exists_of_mergeAll (.inr ((plain.filed.mem_slots key).2 held))
        rw [won, ← held, ← (plain.filed.mem_slots key).1 (Winners.mem_of_won won)]
  · simp only [Partition.standing, standing]
    cases held : contents.deletion with
    | none => rw [if_pos ((plain.isLive_iff key).2 held), Option.map_none]
    | some deletion =>
        have dead : (contents.partition key).deletion.isLive ≠ true := by
          rw [Ne, plain.isLive_iff, held]
          exact nofun
        rw [if_neg dead, partition, held]
        rfl

theorem standing_writeRow (contents : Contents) (cell : Cell) :
    (contents.writeRow [] cell).standing =
      contents.standing * .write ⟨false, [], cell.column⟩ cell := by
  refine Standing.ext (funext fun slot => ?_) rfl
  rw [Standing.cells_mul_write]
  exact cell?_writeRow contents [] cell slot

theorem standing_writeStatic (contents : Contents) (cell : Cell) :
    (contents.writeStatic cell).standing =
      contents.standing * .write ⟨true, [], cell.column⟩ cell := by
  refine Standing.ext (funext fun slot => ?_) rfl
  rw [Standing.cells_mul_write]
  exact cell?_writeStatic contents cell slot

theorem standing_delete (contents : Contents) (deletion : Deletion) :
    (contents.delete deletion).standing = contents.standing * .deletion deletion.markedAt := by
  refine Standing.ext (funext fun slot => cell?_delete contents deletion slot) ?_
  rw [Standing.deletedAt_mul, standing, standing, Standing.deletion, delete]
  dsimp only
  cases held : contents.deletion with
  | none => rfl
  | some old =>
      have later : max old.markedAt deletion.markedAt =
          if old.markedAt ≤ deletion.markedAt then deletion.markedAt else old.markedAt := rfl
      rw [Option.map_some, latest, Option.elim_some, later]
      dsimp only
      split <;> split <;> rename_i order order' <;> simp only [held, Option.map_some]
      all_goals
        rw [Int64.le_iff_toInt_le] at order order'
        first | rfl | exact congrArg some (Int64.toInt_inj.1 (by omega))

end Contents

/-- The buffer as a source of a key. -/
theorem Memtable.IsPlain.standingOf_partition? {memtable : Memtable} (plain : memtable.IsPlain)
    (key : Key) :
    standingOf (memtable.partition? key).toList = (memtable.contents key).standing := by
  have plain' := plain.contents key
  cases held : memtable.partitions[key]? with
  | none =>
      have empty : memtable.contents key = {} := by
        rw [Memtable.contents, Std.TreeMap.getD_eq_getD_getElem?, held]
        rfl
      rw [partition?, held, empty, Contents.standing_empty]
      rfl
  | some contents =>
      rw [contents_of_partitions held] at plain' ⊢
      rw [partition?, held, Option.map_some, Option.toList_some, standingOf_singleton]
      exact plain'.standing_partition key

/-- What is known of a key: the standing of its sources, or the first failure to read one. -/
abbrev Reading := Except SessionError Standing

namespace Reading

/-- The reading of two lists of sources; a failure to read the older ones comes first. -/
instance : Mul Reading := ⟨fun older newer => older.bind fun first => newer.map (first * ·)⟩

instance : One Reading := ⟨.ok 1⟩

theorem ok_mul_ok (older newer : Standing) :
    (.ok older * .ok newer : Reading) = .ok (older * newer) := rfl

instance : Monoid Reading where
  mul_assoc first second third := by
    cases first with
    | error => rfl
    | ok first =>
        cases second with
        | error => rfl
        | ok second =>
            cases third with
            | error => rfl
            | ok third => exact congrArg Except.ok (mul_assoc first second third)
  one_mul reading := by
    cases reading with
    | error => rfl
    | ok standing => exact congrArg Except.ok (one_mul standing)
  mul_one reading := by
    cases reading with
    | error => rfl
    | ok standing => exact congrArg Except.ok (mul_one standing)

theorem isIdempotentElem (reading : Reading) : IsIdempotentElem reading := by
  cases reading with
  | error => rfl
  | ok standing => exact congrArg Except.ok standing.isIdempotentElem

/-- What is found in some places one by one, an old one first, is known as the product says. -/
theorem map_mapM_eq_prod {α : Type} (find : α → Except SessionError (Option Partition))
    (places : List α) :
    ((places.mapM find).map fun found => standingOf (found.filterMap id)) =
      (places.map fun place => (find place).map fun found => standingOf found.toList).prod := by
  induction places with
  | nil => rfl
  | cons place rest ih =>
      rw [List.mapM_cons, List.map_cons, List.prod_cons, ← ih]
      cases find place with
      | error => rfl
      | ok first =>
          cases rest.mapM find with
          | error => rfl
          | ok others =>
              cases first with
              | none => exact congrArg Except.ok (one_mul _).symm
              | some first => exact congrArg Except.ok (standingOf_append [first] _)

end Reading

/-- What a table knows of a key. -/
def Reader.reading (table : Reader) (disk : Disk) (key : Key) : Reading :=
  ((table.partition? disk key).mapError (SessionError.ofTable .table)).map fun found =>
    standingOf found.toList

namespace Session

variable {session other : Session} {disk later : Disk} {key : Key}

/-- What a session knows of a key. -/
def reading (session : Session) (disk : Disk) (key : Key) : Reading :=
  (session.sources disk key).map standingOf

/-- A session knows what its tables know, the oldest first, and what is in its buffer. -/
theorem reading_eq (plain : session.memtable.IsPlain) :
    session.reading disk key = (session.tables.map fun table => table.reading disk key).prod *
      .ok (session.memtable.contents key).standing := by
  unfold reading sources Reader.reading
  rw [← Reading.map_mapM_eq_prod, ← plain.standingOf_partition?]
  generalize (session.tables.mapM fun table =>
    (Reader.partition? table disk key).mapError (SessionError.ofTable .table)) = stored
  cases stored with
  | error => rfl
  | ok found => exact congrArg Except.ok (standingOf_append _ _)

/-- What is read of a key goes by what is known of it. -/
theorem get_congr (same : session.reading disk key = other.reading later key) :
    session.get disk key = other.get later key := by
  unfold reading at same
  unfold get
  cases found : session.sources disk key with
  | error error =>
      cases found' : other.sources later key with
      | error error' =>
          rw [found, found'] at same
          cases same
          rfl
      | ok sources' =>
          rw [found, found'] at same
          cases same
  | ok sources =>
      cases found' : other.sources later key with
      | error error' =>
          rw [found, found'] at same
          cases same
      | ok sources' =>
          rw [found, found'] at same
          exact congrArg Except.ok (mergedCells_congr (Except.ok.inj same))

end Session

end SortedTable

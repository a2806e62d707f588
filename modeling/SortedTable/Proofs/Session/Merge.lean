import Mathlib.Logic.Function.Basic
import SortedTable.Session

namespace SortedTable

theorem Cells.le_winner (old : Option Cell) (cell : Cell) :
    cell.timestamp ≤ (winner old cell).timestamp ∧
      ∀ held, old = some held → held.timestamp ≤ (winner old cell).timestamp := by
  unfold winner
  cases old with
  | none => exact ⟨Int64.le_refl _, nofun⟩
  | some held =>
      dsimp only
      split
      · rename_i notNewer
        exact ⟨notNewer, fun _ same => by cases same; exact Int64.le_refl _⟩
      · rename_i newer
        refine ⟨Int64.le_refl _, fun _ same => ?_⟩
        cases same
        rw [Int64.le_iff_toInt_le] at newer ⊢
        omega

theorem Cells.winner_eq (old : Option Cell) (cell : Cell) :
    winner old cell = cell ∨ old = some (winner old cell) := by
  unfold winner
  cases old with
  | none => exact .inl rfl
  | some held =>
      dsimp only
      split
      · exact .inr rfl
      · exact .inl rfl

namespace Winners

theorem getElem?_merge (winners : Winners) (slot other : Slot) (cell : Cell) :
    (winners.merge slot cell)[other]? =
      if slot = other then some (Cells.winner winners[slot]? cell) else winners[other]? := by
  rw [merge, Std.TreeMap.getElem?_insert]
  simp only [Std.LawfulEqOrd.compare_eq_iff_eq]

theorem mergeAll_cons (winners : Winners) (slot : Slot) (cell : Cell) (rest : List (Slot × Cell)) :
    winners.mergeAll ((slot, cell) :: rest) = (winners.merge slot cell).mergeAll rest := rfl

/-- A winner was there before or was merged in. -/
theorem mem_of_mergeAll {winners : Winners} {slots : List (Slot × Cell)} {slot : Slot} {cell : Cell}
    (won : (winners.mergeAll slots)[slot]? = some cell) :
    winners[slot]? = some cell ∨ (slot, cell) ∈ slots := by
  induction slots generalizing winners with
  | nil => exact .inl won
  | cons first rest ih =>
      obtain ⟨other, offered⟩ := first
      rw [mergeAll_cons] at won
      rcases ih won with held | member
      · rw [getElem?_merge] at held
        by_cases same : other = slot
        · rw [if_pos same] at held
          have winner := Option.some.inj held
          subst same
          rcases Cells.winner_eq winners[other]? offered with new | old
          · rw [← winner, new]
            exact .inr List.mem_cons_self
          · rw [old, winner]
            exact .inl rfl
        · rw [if_neg same] at held
          exact .inl held
      · exact .inr (List.mem_cons_of_mem _ member)

/-- What wins among cells is one of them. -/
theorem mem_of_won {slots : List (Slot × Cell)} {slot : Slot} {cell : Cell}
    (won : ((∅ : Winners).mergeAll slots)[slot]? = some cell) : (slot, cell) ∈ slots := by
  rcases mem_of_mergeAll won with nothing | member
  · rw [Std.TreeMap.getElem?_emptyc] at nothing
    cases nothing
  · exact member

/-- A slot that a cell was merged into has a winner that is not older. -/
theorem exists_of_mergeAll {winners : Winners} {slots : List (Slot × Cell)} {slot : Slot}
    {cell : Cell} (offered : winners[slot]? = some cell ∨ (slot, cell) ∈ slots) :
    ∃ winner, (winners.mergeAll slots)[slot]? = some winner ∧
      cell.timestamp ≤ winner.timestamp := by
  induction slots generalizing winners cell with
  | nil => exact ⟨cell, offered.resolve_right List.not_mem_nil, Int64.le_refl _⟩
  | cons first rest ih =>
      obtain ⟨other, next⟩ := first
      rw [mergeAll_cons]
      obtain ⟨new, old⟩ := Cells.le_winner winners[other]? next
      by_cases same : other = slot
      · subst same
        have held : (winners.merge other next)[other]? =
            some (Cells.winner winners[other]? next) := by
          rw [getElem?_merge, if_pos rfl]
        have bound {earlier : Cell}
            (least : earlier.timestamp ≤ (Cells.winner winners[other]? next).timestamp) :
            ∃ winner, ((winners.merge other next).mergeAll rest)[other]? = some winner ∧
              earlier.timestamp ≤ winner.timestamp := by
          obtain ⟨winner, won, above⟩ := ih (.inl held)
          refine ⟨winner, won, ?_⟩
          rw [Int64.le_iff_toInt_le] at least above ⊢
          omega
        rcases offered with before | member
        · exact bound (old cell before)
        · rcases List.mem_cons.1 member with first | later
          · cases first
            exact bound new
          · exact ih (.inr later)
      · have kept : (winners.merge other next)[slot]? = winners[slot]? := by
          rw [getElem?_merge, if_neg same]
        apply ih
        rw [kept]
        refine offered.imp id fun member => ?_
        rcases List.mem_cons.1 member with first | later
        · cases first
          exact absurd rfl same
        · exact later

end Winners

/-- One of the partitions was deleted at this time. -/
def IsDeletedAt (sources : List Partition) (time : Int64) : Prop :=
  ∃ source ∈ sources, source.deletion.isLive = false ∧ source.deletion.markedAt = time

theorem isDeletedAt_append {left right : List Partition} {time : Int64} :
    IsDeletedAt (left ++ right) time ↔ IsDeletedAt left time ∨ IsDeletedAt right time := by
  unfold IsDeletedAt
  simp only [List.mem_append, or_and_right, exists_or]

/-- A time is above the last deletion exactly if it is above every deletion. -/
theorem all_deletedAt_iff {sources : List Partition} {time : Int64} :
    (deletedAt sources).all (· < time) = true ↔
      ∀ deleted, IsDeletedAt sources deleted → deleted < time := by
  have greatest (left right : Int64) : max left right < time ↔ left < time ∧ right < time := by
    have same : max left right = if left ≤ right then right else left := rfl
    rw [same]
    split <;> rename_i order <;>
      simp only [Int64.le_iff_toInt_le, Int64.lt_iff_toInt_lt] at order ⊢ <;> omega
  have folded (deleted : List Partition) (latest : Option Int64) :
      (deleted.foldl (fun latest source =>
        some (latest.elim source.deletion.markedAt (max · source.deletion.markedAt)))
        latest).all (· < time) = true ↔
      latest.all (· < time) = true ∧
        ∀ source ∈ deleted, source.deletion.markedAt < time := by
    induction deleted generalizing latest with
    | nil => simp
    | cons source rest ih =>
        rw [List.foldl_cons, ih, List.forall_mem_cons]
        cases latest with
        | none => simp
        | some time' => simp [greatest, and_assoc]
  rw [deletedAt, folded]
  constructor
  · rintro ⟨-, above⟩ deleted ⟨source, among, marked, rfl⟩
    exact above source (List.mem_filter.2 ⟨among, by rw [marked]; rfl⟩)
  · intro above
    refine ⟨rfl, fun source member => ?_⟩
    obtain ⟨among, marked⟩ := List.mem_filter.1 member
    exact above _ ⟨source, among, by simpa using marked, rfl⟩

/-- What was written to the slots of a key since its last deletion, each with its time. -/
abbrev Written := Slot → Option (Bytes × Int64)

/-- What is read of these sources is the last write of every slot, with no time above the last one. -/
structure Represents (sources : List Partition) (written : Written) (last : Int64) : Prop where
  cells : ∀ slot cell, (slot, cell) ∈ sources.flatMap Partition.slots → cell.timestamp ≤ last
  deletions : ∀ deleted, IsDeletedAt sources deleted → deleted ≤ last
  held : ∀ slot value time, written slot = some (value, time) →
    (slot, (⟨slot.column, time, some value⟩ : Cell)) ∈ sources.flatMap Partition.slots
  newest : ∀ slot value time, written slot = some (value, time) → ∀ cell,
    (slot, cell) ∈ sources.flatMap Partition.slots →
    cell = ⟨slot.column, time, some value⟩ ∨ cell.timestamp < time
  alive : ∀ slot value time, written slot = some (value, time) →
    ∀ deleted, IsDeletedAt sources deleted → deleted < time
  dead : ∀ slot, written slot = none → ∀ cell, (slot, cell) ∈ sources.flatMap Partition.slots →
    ∃ deleted, IsDeletedAt sources deleted ∧ cell.timestamp ≤ deleted

namespace Represents

variable {sources later : List Partition} {written : Written} {last time : Int64}

/-- Nothing represents a key that was never written. -/
theorem nil (last : Int64) : Represents [] (fun _ => none) last where
  cells := by simp
  deletions := by simp [IsDeletedAt]
  held := nofun
  newest := nofun
  alive := nofun
  dead := by simp

/-- Sources with the same cells and the same deletions represent the same, also at a later time. -/
theorem congr (represents : Represents sources written last)
    (cells : ∀ slot cell, (slot, cell) ∈ later.flatMap Partition.slots ↔
      (slot, cell) ∈ sources.flatMap Partition.slots)
    (deletions : ∀ deleted, IsDeletedAt later deleted ↔ IsDeletedAt sources deleted)
    (notBelow : last ≤ time) : Represents later written time where
  cells slot cell member :=
    Int64.le_trans (represents.cells slot cell ((cells slot cell).1 member)) notBelow
  deletions deleted marked :=
    Int64.le_trans (represents.deletions deleted ((deletions deleted).1 marked)) notBelow
  held slot value time wrote := (cells slot _).2 (represents.held slot value time wrote)
  newest slot value time wrote cell member :=
    represents.newest slot value time wrote cell ((cells slot cell).1 member)
  alive slot value time wrote deleted marked :=
    represents.alive slot value time wrote deleted ((deletions deleted).1 marked)
  dead slot never cell member := by
    obtain ⟨deleted, marked, notNewer⟩ := represents.dead slot never cell ((cells slot cell).1 member)
    exact ⟨deleted, (deletions deleted).2 marked, notNewer⟩

/-- A write at a new time becomes the last one of its slot, of which other cells may get lost. -/
theorem write (represents : Represents sources written last) (above : last < time) {slot : Slot}
    {value : Bytes}
    (wrote : (slot, (⟨slot.column, time, some value⟩ : Cell)) ∈ later.flatMap Partition.slots)
    (known : ∀ other cell, (other, cell) ∈ later.flatMap Partition.slots →
      (other, cell) ∈ sources.flatMap Partition.slots ∨
        other = slot ∧ cell = ⟨slot.column, time, some value⟩)
    (kept : ∀ other cell, other ≠ slot → (other, cell) ∈ sources.flatMap Partition.slots →
      (other, cell) ∈ later.flatMap Partition.slots)
    (deletions : ∀ deleted, IsDeletedAt later deleted ↔ IsDeletedAt sources deleted) :
    Represents later (Function.update written slot (some (value, time))) time where
  cells other cell member := by
    rcases known other cell member with old | ⟨-, rfl⟩
    · exact Int64.le_of_lt (Int64.lt_of_le_of_lt (represents.cells other cell old) above)
    · exact Int64.le_refl _
  deletions deleted marked := by
    have notAbove := represents.deletions deleted ((deletions deleted).1 marked)
    exact Int64.le_of_lt (Int64.lt_of_le_of_lt notAbove above)
  held other value' time' found := by
    by_cases same : other = slot
    · subst same
      rw [Function.update_self] at found
      cases found
      exact wrote
    · rw [Function.update_of_ne same] at found
      exact kept other _ same (represents.held other value' time' found)
  newest other value' time' found cell member := by
    by_cases same : other = slot
    · subst same
      rw [Function.update_self] at found
      cases found
      rcases known other cell member with old | ⟨-, rfl⟩
      · exact .inr (Int64.lt_of_le_of_lt (represents.cells other cell old) above)
      · exact .inl rfl
    · rw [Function.update_of_ne same] at found
      rcases known other cell member with old | ⟨impossible, -⟩
      · exact represents.newest other value' time' found cell old
      · exact absurd impossible same
  alive other value' time' found deleted marked := by
    have before := (deletions deleted).1 marked
    by_cases same : other = slot
    · subst same
      rw [Function.update_self] at found
      cases found
      exact Int64.lt_of_le_of_lt (represents.deletions deleted before) above
    · rw [Function.update_of_ne same] at found
      exact represents.alive other value' time' found deleted before
  dead other never cell member := by
    by_cases same : other = slot
    · subst same
      rw [Function.update_self] at never
      cases never
    · rw [Function.update_of_ne same] at never
      rcases known other cell member with old | ⟨impossible, -⟩
      · obtain ⟨deleted, marked, notNewer⟩ := represents.dead other never cell old
        exact ⟨deleted, (deletions deleted).2 marked, notNewer⟩
      · exact absurd impossible same

/-- After a deletion at a new time nothing is written any more. -/
theorem delete (represents : Represents sources written last) (above : last < time)
    (marked : IsDeletedAt later time)
    (cells : ∀ slot cell, (slot, cell) ∈ later.flatMap Partition.slots ↔
      (slot, cell) ∈ sources.flatMap Partition.slots)
    (known : ∀ deleted, IsDeletedAt later deleted → IsDeletedAt sources deleted ∨ deleted = time) :
    Represents later (fun _ => none) time where
  cells slot cell member := by
    have notAbove := represents.cells slot cell ((cells slot cell).1 member)
    exact Int64.le_of_lt (Int64.lt_of_le_of_lt notAbove above)
  deletions deleted present := by
    rcases known deleted present with old | rfl
    · exact Int64.le_of_lt (Int64.lt_of_le_of_lt (represents.deletions deleted old) above)
    · exact Int64.le_refl _
  held := nofun
  newest := nofun
  alive := nofun
  dead slot _ cell member := by
    have notAbove := represents.cells slot cell ((cells slot cell).1 member)
    exact ⟨time, marked, Int64.le_of_lt (Int64.lt_of_le_of_lt notAbove above)⟩

/-- The winner of a slot that was written is its last write. -/
theorem winner (represents : Represents sources written last) {slot : Slot} {value : Bytes}
    {time : Int64} (wrote : written slot = some (value, time)) :
    (Winners.mergeAll ∅ (sources.flatMap Partition.slots))[slot]? =
      some ⟨slot.column, time, some value⟩ := by
  have offered : (∅ : Winners)[slot]? = some ⟨slot.column, time, some value⟩ ∨
      (slot, (⟨slot.column, time, some value⟩ : Cell)) ∈ sources.flatMap Partition.slots :=
    .inr (represents.held slot value time wrote)
  obtain ⟨cell, won, notOlder⟩ := Winners.exists_of_mergeAll offered
  rcases represents.newest slot value time wrote cell (Winners.mem_of_won won) with rfl | older
  · exact won
  · dsimp only at notOlder
    rw [Int64.le_iff_toInt_le] at notOlder
    rw [Int64.lt_iff_toInt_lt] at older
    omega

/-- What is read of a key is exactly what was written to it since its last deletion. -/
theorem mem_mergedCells (represents : Represents sources written last) (view : CellView) :
    view ∈ mergedCells sources ↔ written view.slot = some (view.value, view.timestamp) := by
  unfold mergedCells
  dsimp only
  rw [List.mem_filterMap]
  constructor
  · rintro ⟨⟨slot, cell⟩, member, shown⟩
    dsimp only at shown
    rw [Std.TreeMap.mem_toList_iff_getElem?_eq_some] at member
    unfold CellView.of? at shown
    split at shown
    · rename_i later
      obtain ⟨value, held, rfl⟩ := Option.map_eq_some_iff.1 shown
      dsimp only
      cases wrote : written slot with
      | some last =>
          obtain ⟨value', time⟩ := last
          rw [represents.winner wrote] at member
          cases member
          cases held
          rfl
      | none =>
          obtain ⟨deleted, marked, notNewer⟩ :=
            represents.dead slot wrote cell (Winners.mem_of_won member)
          have newer := all_deletedAt_iff.1 later deleted marked
          rw [Int64.le_iff_toInt_le] at notNewer
          rw [Int64.lt_iff_toInt_lt] at newer
          omega
    · cases shown
  · intro wrote
    refine ⟨(view.slot, ⟨view.slot.column, view.timestamp, some view.value⟩),
      Std.TreeMap.mem_toList_iff_getElem?_eq_some.2 (represents.winner wrote), ?_⟩
    have later := all_deletedAt_iff.2 (represents.alive view.slot view.value view.timestamp wrote)
    dsimp only [CellView.of?]
    rw [if_pos later]
    rfl

end Represents

/-- Every slot is read once at most, in the order of the slots. -/
theorem pairwise_mergedCells (sources : List Partition) :
    (mergedCells sources).Pairwise fun left right => compare left.slot right.slot = .lt := by
  unfold mergedCells
  dsimp only
  refine (Std.TreeMap.ordered_keys_toList (t := Winners.mergeAll ∅
    (sources.flatMap Partition.slots))).filterMap _ ?_
  have slotOf {deleted : Option Int64} {slot : Slot} {cell : Cell} {view : CellView}
      (shown : CellView.of? deleted slot cell = some view) : view.slot = slot := by
    unfold CellView.of? at shown
    split at shown
    · obtain ⟨value, -, rfl⟩ := Option.map_eq_some_iff.1 shown
      rfl
    · cases shown
  intro left right order first shown second shown'
  rw [slotOf shown, slotOf shown']
  exact order

end SortedTable

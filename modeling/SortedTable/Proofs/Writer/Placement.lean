import SortedTable.Proofs.Filter.Bloom
import SortedTable.Proofs.Layout.Table
import SortedTable.Proofs.Statistics
import SortedTable.Proofs.Writer.Course

namespace SortedTable

namespace Writer

/-- What a writer gathered from the partitions that it placed. -/
structure Gathers {blockSize : UInt64} (placed : List (Placed blockSize)) (progress : Progress) :
    Prop where
  admits : ∀ one ∈ placed, progress.filter.isPresent one.partition.key.hash = true
  readable : progress.filter.IsReadable
  counted : progress.statistics.partitions = UInt64.ofNat placed.length
  ascending : (placed.map fun one => one.partition.key).Pairwise fun left right =>
    compare left right = .lt
  last : ∀ one ∈ placed, ∃ key, progress.lastKey = some key ∧
    (compare one.partition.key key).isLE = true

namespace Gathers

variable {blockSize : UInt64} {placed : List (Placed blockSize)} {progress : Progress}

/-- A key that is not refused is above those of all partitions before. -/
theorem below (gathers : Gathers placed progress) {key : Key}
    (allowed : refusal? progress key = none) :
    ∀ one ∈ placed, compare one.partition.key key = .lt := by
  intro one member
  obtain ⟨previous, last, notAbove⟩ := gathers.last one member
  unfold refusal? at allowed
  rw [last] at allowed
  by_cases less : (compare previous key).isLT = true
  · exact Std.TransCmp.lt_of_isLE_of_lt notAbove (Ordering.isLT_iff_eq_lt.1 less)
  · simp [Option.filter, less] at allowed

/-- The number of partitions is exact in every table that the file system can hold. -/
theorem toNat_partitions (gathers : Gathers placed progress) {data index : Bytes}
    (laid : Laid blockSize placed data index) (room : index.length ≤ Stage.maxFileBytes) :
    progress.statistics.partitions.toNat = placed.length := by
  have few : placed.length ≤ Stage.maxFileBytes := Nat.le_trans laid.length_le room
  have words : Stage.maxFileBytes < UInt64.size := by decide
  rw [gathers.counted, UInt64.toNat_ofNat_of_lt' (by omega)]

theorem skip (gathers : Gathers placed progress) {key : Key}
    (allowed : refusal? progress key = none) :
    Gathers placed { progress with lastKey := some key } where
  admits := gathers.admits
  readable := gathers.readable
  counted := gathers.counted
  ascending := gathers.ascending
  last one member := ⟨key, rfl, by rw [gathers.below allowed one member]; rfl⟩

theorem add (gathers : Gathers placed progress) (next : Placed blockSize)
    (allowed : refusal? progress next.partition.key = none) :
    Gathers (placed ++ [next]) (Progress.add progress next.partition) where
  admits one member := by
    rcases List.mem_append.1 member with member | member
    · exact Filter.isPresent_add_of_isPresent _ (gathers.admits one member)
    · rw [List.mem_singleton.1 member]
      exact Filter.isPresent_add_self _ _
  readable := gathers.readable.add _
  counted := by
    rw [List.length_append, UInt64.ofNat_add, ← gathers.counted]
    exact Statistics.partitions_add _ _
  ascending := by
    rw [List.map_append, List.pairwise_append]
    refine ⟨gathers.ascending, List.pairwise_singleton _ _, ?_⟩
    intro left before right after
    obtain ⟨one, member, rfl⟩ := List.mem_map.1 before
    rw [List.mem_singleton.1 after]
    exact gathers.below allowed one member
  last one member := by
    refine ⟨next.partition.key, rfl, ?_⟩
    rcases List.mem_append.1 member with member | member
    · rw [gathers.below allowed one member]
      rfl
    · rw [List.mem_singleton.1 member]
      exact Std.ReflCmp.isLE_rfl

end Gathers

/-- A writer that has not failed has placed these partitions. -/
structure Lays (plan : WriterPlan) (folder : Path) (base : Disk)
    (placed : List (Placed plan.settings.blockSize)) (writer : Writer) (store : Store) : Prop where
  setting : writer.setting = plan.setting
  blockSize : writer.blockSize = plan.settings.blockSize
  gathers : ∀ progress, writer.progress = some progress → Gathers placed progress
  laid : ∀ progress, writer.progress = some progress → ∃ data index,
    Laid plan.settings.blockSize placed data index ∧
      (writer.stage store).Follows plan.setting folder base (.filling data index)

/-- The next partition lands behind all bytes that were written. -/
theorem nextPosition_of_follows {setting : Setting} {folder : Path} {base : Disk} {writer : Writer}
    {store : Store} {data index : Bytes}
    (follows : (writer.stage store).Follows setting folder base (.filling data index)) :
    writer.nextPosition = ⟨UInt64.ofNat data.length, UInt64.ofNat index.length⟩ := by
  have position (component : Component) (bytes : Bytes)
      (drafted : Drafts.filling data index component = some { bytes := bytes }) :
      writer.positionOf component = UInt64.ofNat bytes.length := by
    obtain ⟨id, node⟩ := follows.placed component _ drafted
    obtain ⟨output, found, -, taken, -⟩ := (follows.shown component _ id drafted node).opened rfl
    change (((writer.stage store).output? component).map fun output =>
      output.tracker.position).getD 0 = _
    rw [found, Option.map_some, Option.getD_some, Tracker.position, taken]
  rw [nextPosition, position .data data rfl, position .index index rfl]

namespace Lays

variable {plan : WriterPlan} {folder : Path} {base : Disk}
  {placed : List (Placed plan.settings.blockSize)} {writer next : Writer} {store later : Store}

/-- An accepted partition is skipped if it is empty, and placed behind the others if it is not. -/
theorem append (lays : Lays plan folder base placed writer store) {partition : Partition}
    {landed : Option Position}
    (answered : writer.append partition store = (.ok landed, next, later)) :
    (partition.isEmpty = true ∧ landed = none ∧ Lays plan folder base placed next later) ∨
      partition.isEmpty = false ∧ ∃ one : Placed plan.settings.blockSize,
        one.partition = partition ∧ one.position = writer.nextPosition ∧
        landed = some one.position ∧ Lays plan folder base (placed ++ [one]) next later := by
  have possible := writer.appends partition store
  rw [answered] at possible
  cases possible with
  | skipped progress held allowed empty =>
      refine .inl ⟨empty, rfl, lays.setting, lays.blockSize, fun _ same => ?_,
        fun _ _ => lays.laid progress held⟩
      cases same
      exact (lays.gathers progress held).skip allowed
  | written progress stage held allowed full ran =>
      rw [lays.setting, lays.blockSize] at ran
      obtain ⟨data, index, laid, follows⟩ := lays.laid progress held
      obtain ⟨performed, unbroken⟩ := Stage.run_eq_none_iff.1 ran
      obtain ⟨written, steps⟩ := partition.steps_script unbroken data index
      have position := nextPosition_of_follows follows
      refine .inr ⟨full, ⟨partition, writer.nextPosition, written⟩, rfl, rfl, rfl, lays.setting,
        lays.blockSize, fun _ same => ?_, fun _ _ => ⟨_, _, laid.snoc _ ?_ ?_,
          follows.performAll steps performed⟩⟩
      · cases same
        exact (lays.gathers progress held).add ⟨partition, writer.nextPosition, written⟩ allowed
      · exact congrArg Position.data position
      · exact congrArg Position.index position

end Lays

/-- A writer that was just built has placed nothing. -/
theorem lays_of_opening {plan : WriterPlan} {store : Store} {folder : Path} {begun : Stage}
    {filter : Filter} (resides : plan.descriptor.ResidesIn (plan.site store) folder)
    (apart : plan.descriptor.IsApart (plan.site store))
    (made : Filter.forTable plan.expected plan.settings.falsePositiveChance = .ok filter)
    (ran : (plan.ground store).run plan.setting plan.opening = (begun, none)) :
    Lays plan folder (plan.site store) [] (plan.writer filter begun) begun.store where
  setting := rfl
  blockSize := rfl
  gathers progress same := by
    cases same
    exact ⟨nofun, Filter.isReadable_of_forTable made, rfl, .nil, nofun⟩
  laid _ _ := ⟨[], [], .nil, WriterPlan.follows_of_opening resides apart ran⟩

/-- Partitions with the answers of a writer that accepted all of them, and those that it placed. -/
inductive Places {blockSize : UInt64} :
    List Partition → List Attempt → List (Placed blockSize) → Prop
  | nil : Places [] [] []
  | skipped {partition : Partition} {position : Option Position} {partitions : List Partition}
      {attempts : List Attempt} {placed : List (Placed blockSize)}
      (empty : partition.isEmpty = true) (rest : Places partitions attempts placed) :
      Places (partition :: partitions) (⟨partition, position, .ok none⟩ :: attempts) placed
  | written (one : Placed blockSize) {position : Option Position} {partitions : List Partition}
      {attempts : List Attempt} {placed : List (Placed blockSize)}
      (full : one.partition.isEmpty = false) (rest : Places partitions attempts placed) :
      Places (one.partition :: partitions)
        (⟨one.partition, position, .ok (some one.position)⟩ :: attempts) (one :: placed)

/-- A writer that accepts all partitions places those that are not empty behind the others. -/
theorem Lays.appendEach {plan : WriterPlan} {folder : Path} {base : Disk}
    {placed : List (Placed plan.settings.blockSize)} {writer : Writer} {store : Store}
    (lays : Lays plan folder base placed writer store) {partitions : List Partition}
    (accepted : ∀ attempt ∈ (writer.appendEach store partitions).1,
      ∃ landed, attempt.answer = .ok landed) :
    ∃ more, Places partitions (writer.appendEach store partitions).1 more ∧
      Lays plan folder base (placed ++ more) (writer.appendEach store partitions).2.1
        (writer.appendEach store partitions).2.2 := by
  induction partitions generalizing writer store placed with
  | nil => exact ⟨[], .nil, by rw [List.append_nil]; exact lays⟩
  | cons partition rest ih =>
      rcases answered : writer.append partition store with ⟨answer, next, later⟩
      rw [Writer.appendEach, answered] at accepted ⊢
      dsimp only at accepted ⊢
      obtain ⟨landed, same⟩ := accepted _ List.mem_cons_self
      dsimp only at same
      subst same
      have further := fun attempt member => accepted attempt (List.mem_cons_of_mem _ member)
      rcases lays.append answered with
        ⟨empty, rfl, lays'⟩ | ⟨full, one, rfl, -, rfl, lays'⟩
      · obtain ⟨more, places, last⟩ := ih lays' further
        exact ⟨more, .skipped empty places, last⟩
      · obtain ⟨more, places, last⟩ := ih lays' further
        rw [List.append_assoc] at last
        exact ⟨one :: more, .written one full places, last⟩

end Writer

end SortedTable

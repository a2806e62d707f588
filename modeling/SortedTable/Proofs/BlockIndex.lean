import SortedTable.Proofs.Outcome
import SortedTable.Writer.Script

namespace SortedTable

namespace BlockIndex

/-- The number of blocks, the open one included. -/
def count (index : BlockIndex) : Nat := index.closed.length + index.current.toList.length

theorem count_close {index next : BlockIndex} {stop : UInt64} (closed : index.close stop = .ok next) :
    next.count = index.count ∧ next.current = none := by
  unfold close at closed
  cases held : index.current with
  | none =>
      rw [held] at closed
      cases closed
      exact ⟨rfl, held⟩
  | some block =>
      rw [held] at closed
      obtain ⟨offset, -, closed⟩ := Except.bind_eq_ok_iff.1 closed
      obtain ⟨width, -, closed⟩ := Except.bind_eq_ok_iff.1 closed
      cases closed
      simp [count, held]

/-- An element adds one block at most. -/
theorem count_add_le {index next : BlockIndex} {clustering : Clustering} {start stop : UInt64}
    (added : index.add clustering start stop = .ok next) : next.count ≤ index.count + 1 := by
  obtain ⟨width, -, added⟩ := Except.bind_eq_ok_iff.1 added
  have grown (block : OpenBlock) :
      ({ index with current := some block } : BlockIndex).count ≤ index.count + 1 := by
    simp only [count, Option.toList_some, List.length_singleton]
    omega
  dsimp only at added
  split at added
  · rw [(count_close added).1]
    exact grown _
  · cases added
    exact grown _

/-- A single block is none. -/
theorem blocks_eq_nil {index : BlockIndex} {stop : UInt64} {blocks : List Block}
    (few : index.count ≤ 1) (cut : index.blocks stop = .ok blocks) : blocks = [] := by
  obtain ⟨next, closed, same⟩ := Except.map_eq_ok_iff.1 cut
  obtain ⟨counted, ended⟩ := count_close closed
  have single : next.closed.length ≤ 1 := by
    rw [count, ended] at counted
    simp only [Option.toList_none, List.length_nil, Nat.add_zero] at counted
    omega
  rw [if_pos single] at same
  exact same.symm

end BlockIndex

theorem EncodedElement.blocks_eq_nil {index : BlockIndex} {position : UInt64}
    {encoded : List EncodedElement} {blocks : List Block}
    (few : index.count + encoded.length ≤ 1)
    (cut : EncodedElement.blocks index position encoded = .ok blocks) : blocks = [] := by
  induction encoded generalizing index position with
  | nil => exact BlockIndex.blocks_eq_nil few cut
  | cons first rest ih =>
      obtain ⟨stop, -, cut⟩ := Except.bind_eq_ok_iff.1 cut
      obtain ⟨next, added, cut⟩ := Except.bind_eq_ok_iff.1 cut
      refine ih ?_ cut
      have grown := BlockIndex.count_add_le added
      rw [List.length_cons] at few
      omega

/-- A partition of a single element has no blocks. -/
theorem Partition.blocks_eq_nil {partition : Partition} {blockSize position : UInt64}
    {encoded : List EncodedElement} {blocks : List Block} (few : encoded.length ≤ 1)
    (cut : partition.blocks blockSize position encoded = .ok blocks) : blocks = [] := by
  obtain ⟨start, -, cut⟩ := Except.bind_eq_ok_iff.1 cut
  have empty : (BlockIndex.start position blockSize).count = 0 := rfl
  exact EncodedElement.blocks_eq_nil (by omega) cut

end SortedTable

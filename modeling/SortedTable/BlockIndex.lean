import SortedTable.Overflow
import SortedTable.Partition

namespace SortedTable

/-- A run of elements: the clusterings at its ends and where it lies behind the partition's start. -/
structure Block where
  first : Clustering
  last : Clustering
  offset : UInt64
  width : UInt64
  deriving DecidableEq, Inhabited

/-- A block that still grows. -/
structure OpenBlock where
  first : Clustering
  last : Clustering
  start : UInt64
  deriving DecidableEq, Inhabited

/-- The blocks cut so far, in reverse, and the open one. -/
structure BlockIndex where
  partitionStart : UInt64
  blockSize : UInt64
  closed : List Block := []
  current : Option OpenBlock := none
  deriving DecidableEq, Inhabited

namespace BlockIndex

/-- An index without blocks. A block size of zero counts as one. -/
def start (partitionStart blockSize : UInt64) : BlockIndex where
  partitionStart := partitionStart
  blockSize := if blockSize = 0 then 1 else blockSize

/-- Closes the open block, if there is one, at `stop`. -/
def close (index : BlockIndex) (stop : UInt64) : Except Overflow BlockIndex :=
  match index.current with
  | none => .ok index
  | some block => do
      let offset ← exactDifference block.start index.partitionStart
      let width ← exactDifference stop block.start
      pure
        { index with
          closed := ⟨block.first, block.last, offset, width⟩ :: index.closed
          current := none }

/-- Adds an element that lies from `start` to `stop`. -/
def add (index : BlockIndex) (clustering : Clustering) (start stop : UInt64) :
    Except Overflow BlockIndex := do
  let block : OpenBlock :=
    match index.current with
    | some block => { block with last := clustering }
    | none => ⟨clustering, clustering, start⟩
  let width ← exactDifference stop block.start
  let index := { index with current := some block }
  if index.blockSize ≤ width then index.close stop else pure index

/-- The blocks of a partition whose last element ends at `stop`; a single block is none. -/
def blocks (index : BlockIndex) (stop : UInt64) : Except Overflow (List Block) :=
  (index.close stop).map fun index =>
    if index.closed.length ≤ 1 then [] else index.closed.reverse

end BlockIndex

end SortedTable

import SortedTable.Memtable

namespace SortedTable.Memtable

inductive Operation where
  | put (key : Key) (clustering : Clustering) (cell : Cell)
  | putStatic (key : Key) (cell : Cell)
  | deletePartition (key : Key) (deletion : Deletion)
  | deleteRange (key : Key) (range : DeletedRange)
  | clear

/-- The key that an operation touches. -/
def Operation.key? : Operation → Option Key
  | .put key _ _ | .putStatic key _ | .deletePartition key _ | .deleteRange key _ => some key
  | .clear => none

def perform (memtable : Memtable) : Operation → Memtable
  | .put key clustering cell => memtable.put key clustering cell
  | .putStatic key cell => memtable.putStatic key cell
  | .deletePartition key deletion => memtable.deletePartition key deletion
  | .deleteRange key range => memtable.deleteRange key range
  | .clear => .empty

/-- The buffer after operations in order. -/
def performAll (memtable : Memtable) (operations : List Operation) : Memtable :=
  operations.foldl perform memtable

end SortedTable.Memtable

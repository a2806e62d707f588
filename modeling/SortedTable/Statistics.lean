import SortedTable.Partition

namespace SortedTable

structure Statistics where
  partitions : UInt64
  rows : UInt64
  cells : UInt64
  tombstones : UInt64
  minTimestamp : Int64
  maxTimestamp : Int64
  firstKey : Bytes
  lastKey : Bytes
  /-- The chance of false positives that the filter was built for, as the bits of a double. -/
  chanceBits : UInt64
  deriving DecidableEq, Inhabited

namespace Statistics

/-- The statistics of no partitions at all. -/
def empty (chanceBits : UInt64) : Statistics where
  partitions := 0
  rows := 0
  cells := 0
  tombstones := 0
  minTimestamp := Int64.maxValue
  maxTimestamp := Int64.minValue
  firstKey := []
  lastKey := []
  chanceBits := chanceBits

/-- Widens the range of write times. -/
def addTimestamp (statistics : Statistics) (timestamp : Int64) : Statistics :=
  { statistics with
    minTimestamp := if timestamp < statistics.minTimestamp then timestamp else statistics.minTimestamp
    maxTimestamp :=
      if statistics.maxTimestamp < timestamp then timestamp else statistics.maxTimestamp }

/-- Counts a deletion as a tombstone. -/
def addTombstone (statistics : Statistics) (deletion : Deletion) : Statistics :=
  { statistics with tombstones := statistics.tombstones + 1 }.addTimestamp deletion.markedAt

/-- Counts a deletion unless it is none. -/
def addDeletion (statistics : Statistics) (deletion : Deletion) : Statistics :=
  if deletion.isLive then statistics else statistics.addTombstone deletion

def addCell (statistics : Statistics) (cell : Cell) : Statistics :=
  { statistics with
    cells := statistics.cells + 1
    tombstones :=
      if cell.isTombstone then statistics.tombstones + 1 else statistics.tombstones
  }.addTimestamp cell.timestamp

def addRow (statistics : Statistics) (row : Row) : Statistics :=
  row.cells.foldl addCell
    ({ statistics with rows := statistics.rows + 1 }.addDeletion row.deletion)

def addElement (statistics : Statistics) : Element → Statistics
  | .row content => statistics.addRow content
  | .marker content => statistics.addTombstone content.deletion

/-- Notes the key of a further partition. -/
def addKey (statistics : Statistics) (key : Key) : Statistics :=
  { statistics with
    firstKey := if statistics.partitions = 0 then key.bytes else statistics.firstKey
    lastKey := key.bytes
    partitions := statistics.partitions + 1 }

/-- Counts a partition. -/
def add (statistics : Statistics) (partition : Partition) : Statistics :=
  let statistics := (statistics.addKey partition.key).addDeletion partition.deletion
  let statistics := partition.staticRow.elim statistics statistics.addRow
  partition.elements.foldl addElement statistics

end Statistics

end SortedTable

import SortedTable.Descriptor
import SortedTable.Disk.Place
import SortedTable.Filter.Basic
import SortedTable.Layout.IndexEntry
import SortedTable.Layout.Statistics
import SortedTable.Writer.Medium

namespace SortedTable

/-- An open table. The summary holds, in order, each key and where its entry of the index stands. -/
structure Reader where
  descriptor : Descriptor
  filter : Filter
  statistics : Statistics
  summary : List (Key × UInt64)
  index : Node
  data : Node
  deriving Inhabited

/-- The number of summary entries that no memory can hold. -/
def summaryLimit : Nat := 192153584101141162

/-- The number of bytes that are read ahead. -/
def readAhead : Nat := 8192

/-- The first position from which reading ahead would pass the greatest offset of a file. -/
def offsetLimit : Nat := UInt64.size / 2 - readAhead

/-- The first key that is not above the one before it. -/
def firstOutOfOrder : List Key → Option Key
  | previous :: current :: rest =>
      if compare previous current = .lt then firstOutOfOrder (current :: rest) else some current
  | _ => none

/-- Keys of which none is out of order ascend strictly. -/
theorem pairwise_of_firstOutOfOrder (keys : List Key) (ordered : firstOutOfOrder keys = none) :
    keys.Pairwise fun left right => compare left right = .lt := by
  induction keys with
  | nil => exact .nil
  | cons previous rest ih =>
      cases rest with
      | nil => exact List.pairwise_singleton _ _
      | cons current rest =>
          unfold firstOutOfOrder at ordered
          split at ordered
          · rename_i above
            have tail := ih ordered
            refine List.pairwise_cons.2 ⟨fun key member => ?_, tail⟩
            rcases List.mem_cons.1 member with rfl | member
            · exact above
            · exact Std.TransCmp.lt_trans above (List.rel_of_pairwise_cons tail member)
          · cases ordered

namespace Descriptor

/-- A table is committed once its list of contents has its final name. -/
def isCommitted (descriptor : Descriptor) (disk : Disk) : Bool :=
  disk.exists? (descriptor.finalPath .contents)

/-- Opens the file of a component. -/
def open? (descriptor : Descriptor) (disk : Disk) (component : Component) :
    Except TableError Node :=
  liftIo (disk.find (descriptor.finalPath component))

def loadStatistics (descriptor : Descriptor) (disk : Disk) : Except TableError Statistics := do
  let node ← descriptor.open? disk .statistics
  Statistics.decode (← liftIo (disk.read node))

/-- Reads the filter of a table. A table without one gets a filter that admits every key. -/
def loadFilter (descriptor : Descriptor) (disk : Disk) : Except TableError Filter :=
  match disk.find (descriptor.finalPath .filter) with
  | .error _ => .ok .alwaysPresent
  | .ok node =>
      match disk.read node with
      | .error cause => .error (.filter (.io cause))
      | .ok bytes =>
          match Filter.load descriptor.version.filterFormat bytes with
          | .ok (filter, _) => .ok filter
          | .error cause => .error (.filter cause)

end Descriptor

namespace Reader

/-- The summary of an index, if its keys ascend and all of it can be read. -/
def summarize (index : Bytes) : Except TableError (List (Key × UInt64)) :=
  let (entries, fault) := IndexEntry.scan index
  match firstOutOfOrder (entries.map ScannedEntry.key) with
  | some key => .error (.corrupt (.keyOutOfOrder key))
  | none =>
      match fault with
      | some error => .error error
      | none => .ok (entries.map fun scanned => (scanned.key, scanned.position))

/-- Fails if the medium does. -/
def checkMedium (medium : Medium) (component : Component) : Except TableError Unit :=
  match medium.reopen component with
  | some cause => .error (.io cause)
  | none => .ok ()

/-- Opens a committed table whose filter and statistics are at hand. -/
def ofParts (medium : Medium) (disk : Disk) (descriptor : Descriptor) (filter : Filter)
    (statistics : Statistics) : Except TableError Reader := do
  checkMedium medium .index
  let index ← descriptor.open? disk .index
  if summaryLimit < statistics.partitions.toNat then .error (.overflow .capacity)
  let summary ← summarize (← liftIo (disk.read index))
  if summary.length ≠ statistics.partitions.toNat then
    .error (.corrupt (.entryCount summary.length statistics.partitions))
  checkMedium medium .data
  let data ← descriptor.open? disk .data
  pure ⟨descriptor, filter, statistics, summary, index, data⟩

/-- Opens a committed table. -/
def load (disk : Disk) (descriptor : Descriptor) : Except TableError Reader :=
  if descriptor.isCommitted disk then do
    let statistics ← descriptor.loadStatistics disk
    let filter ← descriptor.loadFilter disk
    ofParts .sound disk descriptor filter statistics
  else .error (.notCommitted descriptor.render)

/-- The keys in the order of the table. -/
def keys (reader : Reader) : List Key := reader.summary.map Prod.fst

/-- The number of partitions. -/
def size (reader : Reader) : Nat := reader.summary.length

def isEmpty (reader : Reader) : Bool := reader.summary.isEmpty

/-- The bytes of an open file from a position on. -/
def readFrom (disk : Disk) (node : Node) (position : UInt64) : Except TableError Bytes :=
  if position.toNat < offsetLimit then
    liftIo ((disk.read node).map fun bytes => bytes.drop position.toNat)
  else .error (.io (.system .invalidArgument))

/-- The entry of the index at a position, with its key. -/
def entryAt (reader : Reader) (disk : Disk) (position : UInt64) :
    Except TableError (Option (Key × IndexEntry)) := do
  IndexEntry.decode? (← readFrom disk reader.index position)

/-- The key whose entry of the index is at a position. -/
def keyAt (reader : Reader) (disk : Disk) (position : UInt64) : Except TableError Key := do
  match ← reader.entryAt disk position with
  | some (key, _) => pure key
  | none => .error (.corrupt (.noEntry position))

/-- Whether the filter admits a key; `false` means that the table does not hold it. -/
def mayContain (reader : Reader) (key : Key) : Bool := reader.filter.isPresent key.hash

/-- Halves a summary towards a key until at most one item is left. -/
def narrow (key : Key) (summary : List (Key × UInt64)) : List (Key × UInt64) :=
  if _long : 1 < summary.length then
    let middle := summary.length / 2
    have _inside : middle < summary.length := by omega
    if compare summary[middle].1 key = .gt then
      narrow key (summary.take (summary.length - middle))
    else narrow key (summary.drop middle)
  else summary
termination_by summary.length
decreasing_by
  · rw [List.length_take]
    omega
  · rw [List.length_drop]
    omega

/-- Where the entry of a key stands in the index: the summary is searched by halving. -/
def indexPosition? (reader : Reader) (key : Key) : Option UInt64 :=
  match narrow key reader.summary with
  | (found, position) :: _ => if compare found key = .eq then some position else none
  | [] => none

/-- The entry of a key, if the table holds it. -/
def entry? (reader : Reader) (disk : Disk) (key : Key) : Except TableError (Option IndexEntry) :=
  if reader.mayContain key then
    match reader.indexPosition? key with
    | none => .ok none
    | some position => do
        match ← reader.entryAt disk position with
        | some (found, entry) =>
            if found = key then pure (some entry)
            else .error (.corrupt (.mismatchingEntry position))
        | none => .error (.corrupt (.mismatchingEntry position))
  else .ok none

/-- The partition at a position of the data. -/
def partitionAt (reader : Reader) (disk : Disk) (position : UInt64) :
    Except TableError Partition := do
  (Partition.decode position (← readFrom disk reader.data position)).map Prod.fst

/-- The partition of a key, if the table holds it. -/
def partition? (reader : Reader) (disk : Disk) (key : Key) :
    Except TableError (Option Partition) := do
  match ← reader.entry? disk key with
  | some entry => some <$> reader.partitionAt disk entry.dataPosition
  | none => pure none

/-- An open table in words, given the words for its filter. -/
def render (reader : Reader) (filter : String) : String :=
  s!"SSTableReader \x7b descriptor: {reader.descriptor.describe}, " ++
    s!"partitions: {reader.size}, filter: {filter} \x7d"

end Reader

end SortedTable

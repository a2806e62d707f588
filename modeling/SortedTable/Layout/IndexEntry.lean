import SortedTable.BlockIndex
import SortedTable.Layout.Partition

namespace SortedTable

/-- Where a partition starts, and the blocks of a large one. -/
structure IndexEntry where
  dataPosition : UInt64
  blocks : List Block
  deriving DecidableEq, Inhabited

/-- Whether the partition has an index of its own. -/
def IndexEntry.isIndexed (entry : IndexEntry) : Bool := !entry.blocks.isEmpty

namespace Block

def encode (block : Block) : Except IoError Bytes := do
  let first ← block.first.encode
  let last ← block.last.encode
  pure (first ++ last ++ Bytes.word64 block.offset ++ Bytes.word64 block.width)

def decode : Decoder TableError Block := do
  let first ← Clustering.decode .index
  let last ← Clustering.decode .index
  let offset ← Decoder.word64
  let width ← Decoder.word64
  pure ⟨first, last, offset, width⟩

/-- The blocks behind their number; no blocks have no bytes at all. -/
def encodeAll (blocks : List Block) : Except IoError Bytes :=
  if blocks.isEmpty then .ok []
  else do
    let count ← lengthPrefix .promotedIndex 4 blocks.length
    let encoded ← blocks.mapM encode
    pure (count ++ encoded.flatten)

/-- Reads the blocks at the front of an entry's last part. -/
def decodeAll (bytes : Bytes) : Except TableError (List Block) :=
  if bytes.isEmpty then .ok []
  else ((do Decoder.many decode (← Decoder.little 4)) bytes).map Prod.fst

end Block

namespace IndexEntry

/-- The fields of an entry, in the order of their writing. -/
def fields (key : Key) (entry : IndexEntry) : Except TableError (List Bytes) := do
  let name ← key.fields
  let promoted ← liftIo (Block.encodeAll entry.blocks)
  let length ← liftIo (lengthPrefix .promotedIndex 4 promoted.length)
  pure (name ++ [Bytes.word64 entry.dataPosition, length, promoted])

/-- The size of an entry by the lengths of its key and of its blocks. -/
def sizeWith (keyLength promotedLength : Nat) : UInt64 :=
  2 + UInt64.ofNat keyLength + 8 + 4 + UInt64.ofNat promotedLength

/-- The size of an entry. -/
def size (key : Key) (entry : IndexEntry) : UInt64 :=
  sizeWith key.bytes.length (((Block.encodeAll entry.blocks).toOption.getD []).length)

end IndexEntry

/-- An entry with its key as it stands in the index, its blocks not yet read. -/
structure IndexRecord where
  key : Bytes
  dataPosition : UInt64
  promoted : Bytes
  deriving DecidableEq, Inhabited

namespace IndexRecord

/-- Reads what follows the length of the key. -/
def decodeBehind (keyLength : Nat) : Decoder TableError IndexRecord := do
  let key ← Decoder.take keyLength
  let dataPosition ← Decoder.word64
  let promotedLength ← Decoder.little 4
  if maxPromotedBytes < promotedLength then
    Decoder.fail (.corrupt (.promotedIndexTooLarge promotedLength))
  else
    let promoted ← Decoder.take promotedLength
    pure ⟨key, dataPosition, promoted⟩

/-- The number of bytes that a record takes. -/
def size (record : IndexRecord) : UInt64 :=
  IndexEntry.sizeWith record.key.length record.promoted.length

/-- The entry of a record, if its blocks can be read. -/
def entry (record : IndexRecord) : Except TableError IndexEntry :=
  (Block.decodeAll record.promoted).map fun blocks => ⟨record.dataPosition, blocks⟩

theorem leavesEnd_decodeBehind (keyLength : Nat) :
    Decoder.LeavesEnd (decodeBehind keyLength) := by
  refine .bind (.take keyLength) fun key => .bind (.map _ (.little 8)) fun dataPosition =>
    .bind (.little 4) fun promotedLength => ?_
  split
  · exact .fail _
  · exact .bind (.take promotedLength) fun promoted => .pure _

end IndexRecord

/-- An entry that was read, with its key and where the record of it starts. -/
structure ScannedEntry where
  key : Key
  entry : IndexEntry
  position : UInt64
  deriving DecidableEq, Inhabited

namespace IndexEntry

/-- Reads the entry at the front. Fewer than two bytes hold no entry any more. -/
def decode? (bytes : Bytes) : Except TableError (Option (Key × IndexEntry)) :=
  match bytes with
  | low :: high :: behind =>
      match IndexRecord.decodeBehind (Bytes.ofLittleEndian [low, high]) behind with
      | .error error => .error error
      | .ok (record, _) => record.entry.map fun entry => some (.ofBytes record.key, entry)
  | _ => .ok none

/-- Reads entries, the next one at `position`, and adds them in reverse to those before. -/
def scanAfter (bytes : Bytes) (position : UInt64) (before : List ScannedEntry) :
    List ScannedEntry × Option TableError :=
  match bytes with
  | low :: high :: behind =>
      match _read : IndexRecord.decodeBehind (Bytes.ofLittleEndian [low, high]) behind with
      | .error error => (before.reverse, some error)
      | .ok (record, rest) =>
          match record.entry with
          | .error error => (before.reverse, some error)
          | .ok entry =>
              scanAfter rest (position + record.size)
                (⟨.ofBytes record.key, entry, position⟩ :: before)
  -- fewer than two bytes are taken for the end
  | _ => (before.reverse, none)
termination_by bytes.length
decreasing_by
  have shorter := (IndexRecord.leavesEnd_decodeBehind _ _ _ _ _read).length_le
  simp only [List.length_cons]
  omega

/-- The entries of an index in order, and why the reading stopped before the end, if it did. -/
def scan (bytes : Bytes) : List ScannedEntry × Option TableError := scanAfter bytes 0 []

end IndexEntry

end SortedTable

import SortedTable.Hash.Checksum
import SortedTable.Layout.Clustering
import SortedTable.Statistics

namespace SortedTable.Statistics

/-- The number at the end of the statistics. -/
def magic : UInt32 := 0x53535434

/-- A key behind its length. -/
def encodeKey (key : Bytes) : Except TableError Bytes :=
  if key.length ≤ maxKeyBytes then .ok (Bytes.littleEndian 2 key.length ++ key)
  else .error (.keyTooLarge key.length)

def encodeBody (statistics : Statistics) : Except TableError Bytes := do
  let firstKey ← encodeKey statistics.firstKey
  let lastKey ← encodeKey statistics.lastKey
  pure (Bytes.word64 statistics.partitions ++ Bytes.word64 statistics.rows ++
    Bytes.word64 statistics.cells ++ Bytes.word64 statistics.tombstones ++
    Bytes.word64 statistics.minTimestamp.toUInt64 ++
    Bytes.word64 statistics.maxTimestamp.toUInt64 ++
    firstKey ++ lastKey ++ Bytes.word64 statistics.chanceBits)

/-- The body, its checksum and the magic number, in the order of their writing. -/
def fields (statistics : Statistics) : Except TableError (List Bytes) :=
  statistics.encodeBody.map fun body =>
    [body, Bytes.word32 (Checksum.crc32 body), Bytes.word32 magic]

def decodeBody : Decoder TableError Statistics := do
  let partitions ← Decoder.word64
  let rows ← Decoder.word64
  let cells ← Decoder.word64
  let tombstones ← Decoder.word64
  let minTimestamp ← Decoder.int64
  let maxTimestamp ← Decoder.int64
  let firstKey ← Decoder.take (← Decoder.little 2)
  let lastKey ← Decoder.take (← Decoder.little 2)
  let chanceBits ← Decoder.word64
  pure ⟨partitions, rows, cells, tombstones, minTimestamp, maxTimestamp, firstKey, lastKey,
    chanceBits⟩

/-- The statistics in a whole file. -/
def decode (bytes : Bytes) : Except TableError Statistics :=
  if bytes.length < 8 then .error (.corrupt .statisticsTooSmall)
  else
    let body := bytes.take (bytes.length - 8)
    let trailer := bytes.drop (bytes.length - 8)
    let expected := UInt32.ofNat (Bytes.ofLittleEndian (trailer.take 4))
    let found := UInt32.ofNat (Bytes.ofLittleEndian (trailer.drop 4))
    let actual := Checksum.crc32 body
    -- the magic number is checked first, and bytes behind the last field are not looked at
    if found ≠ magic then .error (.corrupt (.badMagic found))
    else if actual ≠ expected then
      .error (.checksumMismatch (UInt64.ofNat body.length) expected actual)
    else (decodeBody body).map Prod.fst

end SortedTable.Statistics

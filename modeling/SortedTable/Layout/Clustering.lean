import SortedTable.Bytes.Decoder
import SortedTable.Partition
import SortedTable.TableError

namespace SortedTable

/-- A length in `width` bytes, if it fits. -/
def lengthPrefix (field : LengthField) (width length : Nat) : Except IoError Bytes :=
  if length < Bytes.limit width then .ok (Bytes.littleEndian width length)
  else .error (.lengthOverflow field length)

/-- Bytes behind their length. -/
def withLength (field : LengthField) (width : Nat) (bytes : Bytes) : Except IoError Bytes :=
  (lengthPrefix field width bytes.length).map (· ++ bytes)

/-- Takes a part of given length out of a delimited body. -/
def takePart (component : Component) (length : Nat) : Decoder TableError Bytes := fun bytes =>
  let taken := bytes.take length
  if taken.length = length then .ok (taken, bytes.drop length)
  else .error (.corrupt (.partTooLong component length bytes.length))

namespace Deletion

def encode (deletion : Deletion) : Bytes :=
  Bytes.word64 deletion.markedAt.toUInt64 ++ Bytes.word32 deletion.localTime.toUInt32

@[simp] theorem length_encode (deletion : Deletion) : deletion.encode.length = 12 := by
  simp [encode, Bytes.word64, Bytes.word32]

def decode : Decoder TableError Deletion := do
  let markedAt ← Decoder.int64
  let localTime ← Decoder.int32
  pure ⟨markedAt, localTime⟩

end Deletion

namespace Clustering

def encode (clustering : Clustering) : Except IoError Bytes := do
  let count ← lengthPrefix .clustering 2 clustering.length
  let values ← clustering.mapM (withLength .clusteringValue 4)
  pure (count ++ values.flatten)

/-- Reads a clustering out of the body of a component. -/
def decode (component : Component) : Decoder TableError Clustering := do
  let count ← Decoder.little 2
  Decoder.many (do takePart component (← Decoder.little 4)) count

end Clustering

end SortedTable

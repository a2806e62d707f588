import SortedTable.Hash.Checksum
import SortedTable.Layout.Row

namespace SortedTable

/-- The kind of the end mark. -/
def endKind : UInt8 := 0

def staticRowKind : UInt8 := 1

def rowKind : UInt8 := 2

def markerKind : UInt8 := 3

/-- The flag in a header that a static row follows. -/
def staticRowFlag : UInt8 := 1

namespace Key

/-- The fields of a key behind its length. -/
def fields (key : Key) : Except TableError (List Bytes) :=
  if key.bytes.length ≤ maxKeyBytes then
    .ok [Bytes.littleEndian 2 key.bytes.length, key.bytes]
  else .error (.keyTooLarge key.bytes.length)

end Key

/-- The fields of a header, in the order of their writing. -/
def headerFields (key : Key) (deletion : Deletion) (hasStaticRow : Bool) :
    Except TableError (List Bytes) :=
  key.fields.map (· ++
    [Bytes.word64 deletion.markedAt.toUInt64, Bytes.word32 deletion.localTime.toUInt32,
      [if hasStaticRow then staticRowFlag else 0]])

/-- The size of a header. -/
def headerSize (key : Key) : UInt64 := 2 + UInt64.ofNat key.bytes.length + 12 + 1

/-- The fields of a unit, in the order of their writing. -/
def unitFields (kind : UInt8) (body : Bytes) : Except IoError (List Bytes) :=
  (lengthPrefix .unitBody 4 body.length).map fun length =>
    [[kind], length, Bytes.word32 (Checksum.crc32 body), body]

/-- The size of a unit in front of its body. -/
def unitHeaderSize : UInt64 := 1 + 4 + 4

/-- The size of a unit. -/
def unitSize (body : Bytes) : UInt64 := unitHeaderSize + UInt64.ofNat body.length

/-- The end mark. -/
def endMark : Bytes := [endKind]

def endMarkSize : UInt64 := 1

/-- The kind and the body of an element. -/
def Element.encode : Element → Except IoError (UInt8 × Bytes)
  | .row content => content.encode.map (rowKind, ·)
  | .marker content => content.encode.map (markerKind, ·)

/-- What a header says. -/
structure Header where
  key : Key
  deletion : Deletion
  flags : UInt8

def Header.hasStaticRow (header : Header) : Bool := header.flags &&& staticRowFlag != 0

def Header.decode : Decoder TableError Header := do
  let key ← Decoder.take (← Decoder.little 2)
  let deletion ← Deletion.decode
  let flags ← Decoder.word8
  pure ⟨.ofBytes key, deletion, flags⟩

/-- Reads the body of a unit that starts at `offset`, behind its kind. -/
def decodeBody (offset : UInt64) : Decoder TableError Bytes := do
  let length ← Decoder.little 4
  if maxUnitBytes < length then Decoder.fail (.corrupt (.unitTooLarge length offset))
  else
    let expected ← Decoder.word32
    let body ← Decoder.take length
    let actual := Checksum.crc32 body
    if actual = expected then pure body
    else Decoder.fail (.checksumMismatch offset expected actual)

theorem leavesEnd_decodeBody (offset : UInt64) : Decoder.LeavesEnd (decodeBody offset) := by
  refine .bind (.little 4) fun length => ?_
  split
  · exact .fail _
  · refine .bind .word32 fun expected => .bind (.take length) fun body => ?_
    dsimp only
    split
    · exact .pure body
    · exact .fail _

/-- The units read so far; the elements are in reverse. -/
structure Units where
  staticRow : Option Row := none
  reversed : List Element := []

namespace Units

/-- Adds the unit at `offset`. The static row must be announced and come first. -/
def add (units : Units) (announced : Bool) (first : Bool) (offset : UInt64) (kind : UInt8)
    (body : Bytes) : Except TableError Units :=
  if kind = staticRowKind && (first && announced) then
    (Row.decode body).map fun row => { units with staticRow := some row }
  else if kind = rowKind then
    (Row.decode body).map fun row => { units with reversed := .row row :: units.reversed }
  else if kind = markerKind then
    (Marker.decode body).map fun marker =>
      { units with reversed := .marker marker :: units.reversed }
  else .error (.corrupt (.unexpectedKind kind offset))

/-- Reads units, the next one at `offset`, up to and with the end mark. -/
def decode (announced first : Bool) (offset : UInt64) (units : Units) (bytes : Bytes) :
    Except TableError (Units × Bytes) :=
  match bytes with
  | [] => .error (OfIoError.ofIoError .unexpectedEnd)
  | kind :: behind =>
      if kind = endKind then .ok (units, behind)
      else
        match _read : decodeBody offset behind with
        | .error error => .error error
        | .ok (body, rest) =>
            match exactSum offset (unitSize body) with
            | .error cause => .error (.overflow cause)
            | .ok next =>
                match units.add announced first offset kind body with
                | .error error => .error error
                | .ok units => decode announced false next units rest
termination_by bytes.length
decreasing_by
  have shorter := (leavesEnd_decodeBody offset _ _ _ _read).length_le
  simp only [List.length_cons]
  omega

end Units

namespace Partition

/-- Reads the partition at `offset` and leaves what follows it. -/
def decode (offset : UInt64) : Decoder TableError Partition := do
  let header ← Header.decode
  let first ← fun bytes =>
    match exactSum offset (headerSize header.key) with
    | .error cause => .error (.overflow cause)
    | .ok first => .ok (first, bytes)
  let units ← Units.decode header.hasStaticRow true first {}
  if header.hasStaticRow && units.staticRow.isNone then
    Decoder.fail (.corrupt (.staticRowLost offset))
  else
    pure ⟨header.key, header.deletion, units.staticRow, units.reversed.reverse⟩

end Partition

end SortedTable

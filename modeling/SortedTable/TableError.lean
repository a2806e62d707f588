import SortedTable.Component
import SortedTable.Filter.Error
import SortedTable.Key
import SortedTable.Overflow
import SortedTable.Settings

namespace SortedTable

/-- What is wrong with the bytes of a component. -/
inductive Corruption where
  /-- A part is longer than the bytes that are left for it. -/
  | partTooLong (component : Component) (length left : Nat)
  | columnNotText
  | bytesBehindRow (count : Nat)
  | unknownBound (code : UInt8)
  | unitTooLarge (length : Nat) (offset : UInt64)
  | unexpectedKind (kind : UInt8) (offset : UInt64)
  | staticRowLost (offset : UInt64)
  | promotedIndexTooLarge (length : Nat)
  | keyOutOfOrder (key : Key)
  | entryCount (entries : Nat) (recorded : UInt64)
  | noEntry (position : UInt64)
  | mismatchingEntry (position : UInt64)
  | statisticsTooSmall
  | badMagic (magic : UInt32)

/-- The greatest body of a unit that a reader accepts, in bytes. -/
def maxUnitBytes : Nat := 64 * 1024 * 1024

/-- The greatest block index of a partition that a reader accepts, in bytes. -/
def maxPromotedBytes : Nat := 16 * 1024 * 1024

/-- The greatest partition key in bytes. -/
def maxKeyBytes : Nat := 65535

/-- The component that holds the wrong bytes. -/
def Corruption.component : Corruption → Component
  | .partTooLong component _ _ => component
  | .columnNotText | .bytesBehindRow _ | .unknownBound _ | .unitTooLarge _ _
  | .unexpectedKind _ _ | .staticRowLost _ => .data
  | .promotedIndexTooLarge _ | .keyOutOfOrder _ | .entryCount _ _ | .noEntry _
  | .mismatchingEntry _ => .index
  | .statisticsTooSmall | .badMagic _ => .statistics

def Corruption.reason : Corruption → String
  | .partTooLong _ length left => s!"length {length} exceeds remaining {left} bytes"
  | .columnNotText => "column name is not UTF-8"
  | .bytesBehindRow count => s!"{count} trailing bytes in row"
  | .unknownBound code => s!"unknown marker bound {code}"
  | .unitTooLarge length offset =>
      s!"unit of {length} bytes at offset {offset} exceeds maximum {maxUnitBytes}"
  | .unexpectedKind kind offset => s!"unexpected unit kind {kind} at offset {offset}"
  | .staticRowLost offset => s!"partition at {offset} lost its static row"
  | .promotedIndexTooLarge length =>
      s!"promoted index of {length} bytes exceeds maximum {maxPromotedBytes}"
  | .keyOutOfOrder key => s!"key {key.render} out of order"
  | .entryCount entries recorded =>
      s!"{entries} entries but statistics record {recorded} partitions"
  | .noEntry position => s!"no entry at position {position}"
  | .mismatchingEntry position => s!"summary pointed to a mismatching entry at {position}"
  | .statisticsTooSmall => "file too small"
  | .badMagic magic => s!"bad magic 0x{Text.hexadecimal magic.toNat}"

inductive TableError where
  | io (cause : IoError)
  | filter (cause : FilterError)
  | settings (cause : SettingsError)
  | outOfOrder (previous current : Key)
  | keyTooLarge (size : Nat)
  /-- The writer of this table has ended. -/
  | aborted (table : String)
  | empty
  /-- The table has no list of contents. -/
  | notCommitted (table : String)
  | unsupportedVersion (name : String)
  | checksumMismatch (offset : UInt64) (expected actual : UInt32)
  | corrupt (flaw : Corruption)
  /-- A count or a position does not fit its width. -/
  | overflow (cause : Overflow)

namespace TableError

instance : OfIoError TableError := ⟨.io⟩

/-- A checksum as it is printed. -/
def checksumText (checksum : UInt32) : String := "0x" ++ Text.hexadecimalFilled 8 checksum.toNat

def message : TableError → String
  | .io cause => s!"I/O error: {cause.message}"
  | .filter cause => s!"filter error: {cause.message}"
  | .settings cause => s!"config error: {cause.message}"
  | .outOfOrder previous current =>
      s!"partition {current.render} appended after {previous.render}: " ++
        "keys must be strictly ascending"
  | .keyTooLarge size => s!"partition key of {size} bytes exceeds the maximum of {maxKeyBytes}"
  | .aborted table => s!"writer for {table} was aborted"
  | .empty => "refusing to write an empty table"
  | .notCommitted table => s!"table {table} is not committed (no TOC)"
  | .unsupportedVersion name => s!"unsupported format version {Text.quote name}"
  | .checksumMismatch offset expected actual =>
      s!"CRC mismatch at offset {offset}: expected {checksumText expected}, " ++
        s!"got {checksumText actual}"
  | .corrupt flaw => s!"corrupt {flaw.component.fileName}: {flaw.reason}"
  | .overflow cause => cause.message

/-- The messages from an error down to its first cause. -/
def chain : TableError → List String
  | .io cause => [message (.io cause), cause.message]
  | .filter (.io cause) =>
      [message (.filter (.io cause)), (FilterError.io cause).message, cause.message]
  | .filter cause => [message (.filter cause), cause.message]
  | .settings cause => [message (.settings cause), cause.message]
  | error => [error.message]

/-- The fault of the operating system behind an error, if there is one. -/
def systemFault? : TableError → Option SystemFault
  | .io cause => cause.systemFault?
  | .filter (.io cause) => cause.systemFault?
  | _ => none

end TableError

end SortedTable

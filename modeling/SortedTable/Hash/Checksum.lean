import SortedTable.Bytes

namespace SortedTable.Checksum

def polynomial : UInt32 := 0xEDB88320

/-- Shifts one bit out of the register and subtracts the polynomial if the bit was set. -/
def shift (register : UInt32) : UInt32 :=
  if register &&& 1 = 1 then (register >>> 1) ^^^ polynomial else register >>> 1

/-- Feeds one byte into the register. -/
def feed (register : UInt32) (byte : UInt8) : UInt32 :=
  shift (shift (shift (shift (shift (shift (shift (shift (register ^^^ byte.toUInt32))))))))

/-- The checksum of bytes. -/
def crc32 (bytes : Bytes) : UInt32 := bytes.foldl feed 0xFFFFFFFF ^^^ 0xFFFFFFFF

end SortedTable.Checksum

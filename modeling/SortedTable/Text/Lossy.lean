import SortedTable.Bytes

namespace SortedTable.Text

/-- The character that stands for malformed bytes. -/
def replacement : Char := '\uFFFD'

/-- The number of bytes of a character with this first byte, or zero if no character has it. -/
def widthOfLead (lead : UInt8) : Nat :=
  if lead < 0x80 then 1
  else if lead < 0xC2 then 0
  else if lead < 0xE0 then 2
  else if lead < 0xF0 then 3
  else if lead < 0xF5 then 4
  else 0

/-- The second bytes that may follow a first byte: no longer form than needed, no surrogate, nothing
above the last code point. -/
def followsLead (lead second : UInt8) : Bool :=
  let least : UInt8 := if lead = 0xE0 then 0xA0 else if lead = 0xF0 then 0x90 else 0x80
  let greatest : UInt8 := if lead = 0xED then 0x9F else if lead = 0xF4 then 0x8F else 0xBF
  least ≤ second && second ≤ greatest

/-- A byte that continues a character. -/
def isContinuation (byte : UInt8) : Bool := 0x80 ≤ byte && byte ≤ 0xBF

/-- The bytes behind a first byte that belong to its character. -/
def further (lead : UInt8) : Bytes → Bytes
  | [] => []
  | second :: rest =>
      if followsLead lead second then
        second :: (rest.take (widthOfLead lead - 2)).takeWhile isContinuation
      else []

/-- The part of a code point that the first byte of a character of this width carries. -/
def leadPart (width : Nat) (lead : UInt8) : Nat :=
  match width with
  | 2 => lead.toNat - 0xC0
  | 3 => lead.toNat - 0xE0
  | 4 => lead.toNat - 0xF0
  | _ => lead.toNat

/-- The character with this leading part and these further bytes. -/
def assemble (part : Nat) (bytes : Bytes) : Char :=
  Char.ofNat (bytes.foldl (fun code byte => code * 64 + (byte.toNat - 0x80)) part)

/-- Reads characters off the bytes and puts them behind those read before. -/
def lossyAfter : Bytes → List Char → List Char
  | [], before => before.reverse
  | lead :: rest, before =>
      let width := widthOfLead lead
      if width ≤ 1 then
        lossyAfter rest ((if width = 1 then Char.ofNat lead.toNat else replacement) :: before)
      else
        let taken := further lead rest
        let character :=
          if taken.length + 1 = width then assemble (leadPart width lead) taken else replacement
        lossyAfter (rest.drop taken.length) (character :: before)
termination_by bytes => bytes.length
decreasing_by all_goals simp only [List.length_cons, List.length_drop]; omega

/-- The text of bytes, with a replacement character for each malformed part. -/
def lossy (bytes : Bytes) : String := String.ofList (lossyAfter bytes [])

end SortedTable.Text

import SortedTable.Text.Hexadecimal
import SortedTable.Text.Visible

namespace SortedTable.Text

/-- A character inside quotes. -/
def quoteCharacter (character : Char) : List Char :=
  match character with
  | '"' => ['\\', '"']
  | '\\' => ['\\', '\\']
  | '\n' => ['\\', 'n']
  | '\t' => ['\\', 't']
  | '\r' => ['\\', 'r']
  | '\x00' => ['\\', '0']
  | _ =>
      if isVisible character then [character]
      else ['\\', 'u', '\x7b'] ++ (hexadecimal character.toNat).toList ++ ['\x7d']

/-- A text in quotes. -/
def quote (text : String) : String :=
  String.ofList ('"' :: text.toList.flatMap quoteCharacter ++ ['"'])

end SortedTable.Text

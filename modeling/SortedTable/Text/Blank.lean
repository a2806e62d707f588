namespace SortedTable.Text

/-- The white space of Unicode. -/
def isBlank (character : Char) : Bool :=
  let code := character.toNat
  (9 ≤ code && code ≤ 13) || code == 0x20 || code == 0x85 || code == 0xA0 || code == 0x1680 ||
    (0x2000 ≤ code && code ≤ 0x200A) || code == 0x2028 || code == 0x2029 || code == 0x202F ||
    code == 0x205F || code == 0x3000

/-- Every ASCII space is blank. -/
theorem isBlank_of_isWhitespace {character : Char} (blank : character.isWhitespace) :
    isBlank character := by
  simp only [Char.isWhitespace, Bool.or_eq_true, decide_eq_true_eq] at blank
  rcases blank with ((rfl | rfl) | rfl) | rfl <;> decide

/-- The characters without the blanks at both ends. -/
def trimList (characters : List Char) : List Char :=
  ((characters.dropWhile isBlank).reverse.dropWhile isBlank).reverse

/-- A text without the blanks at both ends. -/
def trim (text : String) : String := String.ofList (trimList text.toList)

/-- Collects the runs of the characters that do not separate; `run` holds an open run in reverse. -/
def runsAfter (separates : Char → Bool) : List Char → List Char → List (List Char)
  | [], run => if run.isEmpty then [] else [run.reverse]
  | character :: rest, run =>
      if separates character then
        if run.isEmpty then runsAfter separates rest []
        else run.reverse :: runsAfter separates rest []
      else
        runsAfter separates rest (character :: run)

/-- The longest runs of characters that do not separate, in order. -/
def runs (separates : Char → Bool) (text : String) : List String :=
  (runsAfter separates text.toList []).map String.ofList

/-- The longest runs of characters that are not blank, in order. -/
def words (text : String) : List String := runs isBlank text

end SortedTable.Text

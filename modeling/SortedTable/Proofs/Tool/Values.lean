import SortedTable.Proofs.Text.Encoding
import SortedTable.Proofs.Text.Words
import SortedTable.Proofs.Tool.Survival

namespace SortedTable

open Text (IsSpacedOnce IsTrimmed IsWord spaced words)

namespace Tool

/-- What stands in front of the first end of a line is the first line. -/
theorem linesAfter_append {front : Bytes} (whole : 10 ∉ front) (rest current : Bytes) :
    linesAfter (front ++ 10 :: rest) current = (current.reverse ++ front ++ [10]) :: lines rest := by
  induction front generalizing current with
  | nil => simp [linesAfter, lines]
  | cons byte front ih =>
      obtain ⟨other, whole⟩ := not_or.1 (mt List.mem_cons.2 whole)
      rw [List.cons_append, linesAfter, if_neg (Ne.symm other), ih whole]
      simp

/-- A text without an end of a line, and its end, are the first line. -/
theorem lines_line {text : String} (single : '\n' ∉ text.toList) (rest : Bytes) :
    lines (Bytes.ofText (line text) ++ rest) = Bytes.ofText (line text) :: lines rest := by
  have whole : 10 ∉ Bytes.ofText text := fun member =>
    single (Bytes.mem_of_mem_ofText (by decide) member)
  have ended : Bytes.ofText (line text) = Bytes.ofText text ++ [10] := Bytes.ofText_append text "\n"
  rw [ended, List.append_assoc, List.singleton_append, lines, linesAfter_append whole]
  rfl

/-- The end of a line is taken off a text that does not end with a return. -/
theorem text?_withoutEnd_line {text : String} (open' : text.toList.getLast? ≠ some '\r') :
    Bytes.text? (withoutEnd (Bytes.ofText (line text))) = some text := by
  have ended : Bytes.ofText (line text) = Bytes.ofText text ++ [10] := Bytes.ofText_append text "\n"
  have taken : withoutEnd (Bytes.ofText (line text)) = Bytes.ofText text := by
    rw [ended, withoutEnd, List.reverse_append, List.reverse_singleton, List.singleton_append]
    split
    · rename_i rest shape
      have last : (Bytes.ofText text).getLast? = some 13 := by
        rw [List.getLast?_eq_head?_reverse, (List.cons.inj shape).2]
        rfl
      exact absurd (Bytes.getLast?_of_getLast?_ofText (by decide) last) open'
    · rename_i rest _ shape
      rw [← (List.cons.inj shape).2, List.reverse_reverse]
    · rename_i none'
      exact absurd rfl (none' _)
  rw [taken, Bytes.text?_ofText]

section Values

variable {name key column value : String}

/-- A line with a name, a key, a column and a value, each behind a single space. -/
def cellText (name key column value : String) : String :=
  name ++ " " ++ (key ++ " " ++ (column ++ " " ++ value))

theorem words_cellText (named : IsWord name) (keyed : IsWord key) (slotted : IsWord column) :
    words (cellText name key column value) = name :: key :: column :: words value := by
  simp only [cellText, Text.words_append_space, named.words_eq, keyed.words_eq, slotted.words_eq,
    List.singleton_append]

/-- The value in a command is the text of the words of the value in the line. -/
theorem ofLine_cellText (keyed : IsWord key) (slotted : IsWord column) (trimmed : IsTrimmed value) :
    Command.ofLine (cellText "PUT" key column value) = .put key column (spaced value) ∧
      Command.ofLine (cellText "STATIC" key column value) = .putStatic key column (spaced value) := by
  have put : IsWord "PUT" := by decide
  have static : IsWord "STATIC" := by decide
  have upper : Text.toUppercase "PUT" = "PUT" ∧ Text.toUppercase "STATIC" = "STATIC" := by
    decide +kernel
  obtain ⟨word, rest, cut⟩ := List.exists_cons_of_ne_nil trimmed.words_ne_nil
  rw [Command.ofLine, Command.ofLine, words_cellText put keyed slotted,
    words_cellText static keyed slotted, spaced, cut]
  dsimp only
  rw [upper.1, upper.2]
  exact ⟨rfl, rfl⟩

/-- A line with a value is one line, and its text is read back from it. -/
theorem line_cellText (keyed : IsWord key) (slotted : IsWord column) (named : IsWord name)
    (trimmed : IsTrimmed value) (single : '\n' ∉ value.toList) :
    '\n' ∉ (cellText name key column value).toList ∧
      (cellText name key column value).toList.getLast? ≠ some '\r' := by
  have unbroken {word : String} (own : IsWord word) : '\n' ∉ word.toList := by
    intro member
    have proper := own.whole '\n' member
    exact absurd proper (by decide)
  constructor
  · simp [cellText, unbroken named, unbroken keyed, unbroken slotted, single]
  · intro last
    obtain ⟨character, ends, proper⟩ := trimmed.last
    have inhabited : value.toList ≠ [] := by
      intro nothing
      rw [nothing] at ends
      cases ends
    simp only [cellText, String.toList_append, ← List.append_assoc] at last
    rw [List.getLast?_append_of_ne_nil _ inhabited, ends] at last
    cases last
    exact absurd proper (by decide)

end Values

/-- The words of a value are stored with single spaces between them. -/
theorem answerAll_of_value {key column value : String} (keyed : IsWord key) (slotted : IsWord column)
    (trimmed : IsTrimmed value) (single : '\n' ∉ value.toList) :
    (∀ medium clock reading rest session store output,
      answerAll medium clock reading
          (lines (Bytes.ofText (line s!"PUT {key} {column} {value}") ++ rest)) session store output =
        answerAll medium clock (reading + 1) (lines rest)
          (session.put (clock reading) (keyOfText key) column (Bytes.ofText (spaced value))) store
          (output ++ (line "OK" ++ prompt))) ∧
    (∀ medium clock reading rest session store output,
      answerAll medium clock reading
          (lines (Bytes.ofText (line s!"STATIC {key} {column} {value}") ++ rest)) session store output =
        answerAll medium clock (reading + 1) (lines rest)
          (session.putStatic (clock reading) (keyOfText key) column (Bytes.ofText (spaced value))) store
          (output ++ (line "OK" ++ prompt))) ∧
    (Bytes.ofText (spaced value) = Bytes.ofText value ↔ IsSpacedOnce value) ∧
    (∀ other, Bytes.ofText (spaced other) = Bytes.ofText (spaced value) ↔ words other = words value) ∧
    ∀ other, IsTrimmed other → IsSpacedOnce other → IsSpacedOnce value →
      (Bytes.ofText (spaced other) = Bytes.ofText (spaced value) ↔ other = value) := by
  have named : IsWord "PUT" ∧ IsWord "STATIC" := by decide
  have put : s!"PUT {key} {column} {value}" = cellText "PUT" key column value := by
    rw [← String.toList_inj]
    simp [cellText, toString]
  have static : s!"STATIC {key} {column} {value}" = cellText "STATIC" key column value := by
    rw [← String.toList_inj]
    simp [cellText, toString]
  obtain ⟨reads, reads'⟩ := ofLine_cellText keyed slotted trimmed
  obtain ⟨whole, ends⟩ := line_cellText keyed slotted named.1 trimmed single
  obtain ⟨whole', ends'⟩ := line_cellText keyed slotted named.2 trimmed single
  refine ⟨?_, ?_, ?_, ?_, ?_⟩
  · intro medium clock reading rest session store output
    rw [put, lines_line whole, answerAll_of_ok (text?_withoutEnd_line ends) (by rw [reads]; rfl), reads]
    rfl
  · intro medium clock reading rest session store output
    rw [static, lines_line whole', answerAll_of_ok (text?_withoutEnd_line ends') (by rw [reads']; rfl),
      reads']
    rfl
  · rw [Bytes.ofText_inj, Text.spaced_eq_self_iff trimmed]
  · intro other
    rw [Bytes.ofText_inj, Text.spaced_eq_spaced_iff]
  · intro other trimmed' once' once
    rw [Bytes.ofText_inj, (Text.spaced_eq_self_iff trimmed').2 once',
      (Text.spaced_eq_self_iff trimmed).2 once]

/-- A value of two words with a space between them is stored as it is. -/
theorem answerAll_of_value_spacedOnce :
    answerAll .sound (fun _ => 5) 0 (lines (Bytes.ofText "PUT user1 name Alice Smith\n"))
        trialStart.1 trialStart.2 "" =
      answerAll .sound (fun _ => 5) 1 []
        (trialStart.1.put 5 (keyOfText "user1") "name" (Bytes.ofText "Alice Smith")) trialStart.2
        "OK\n> " := by
  have keyed : IsWord "user1" := by decide
  have slotted : IsWord "name" := by decide
  have trimmed : IsTrimmed "Alice Smith" := ⟨⟨'A', rfl, by decide⟩, ⟨'h', rfl, by decide⟩⟩
  obtain ⟨put, -, kept, -⟩ := answerAll_of_value keyed slotted trimmed (by decide)
  have answered := put .sound (fun _ => 5) 0 [] trialStart.1 trialStart.2 ""
  rw [kept.2 (by decide), List.append_nil] at answered
  exact answered

/-- Two spaces in a value are not stored as they are, and the line with one space stores the same. -/
theorem run_of_value_spacedTwice :
    IsTrimmed "a  b" ∧ ¬IsSpacedOnce "a  b" ∧ Bytes.ofText "a b" ≠ Bytes.ofText "a  b" ∧
      Command.ofLine "PUT k c a  b" = .put "k" "c" "a b" ∧
      Command.ofLine "PUT k c a b" = .put "k" "c" "a b" ∧
      Command.ofLine "STATIC k c a\tb" = .putStatic "k" "c" "a b" ∧
      (run .sound (fun _ => 5) unfiltered (Bytes.ofText "PUT k c a  b\nGET k\n") ⟨.empty, []⟩).1.output =
        greeting trialStart.1 ++ "OK\n> c = a b\n> " := by
  refine ⟨⟨⟨'a', rfl, by decide⟩, ⟨'b', rfl, by decide⟩⟩, ?_⟩
  decide +kernel

end Tool

end SortedTable

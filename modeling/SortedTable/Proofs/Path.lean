import SortedTable.Path

namespace SortedTable

namespace Text

variable {separates : Char → Bool}

/-- A separator ends what stands before it. -/
theorem runsAfter_append {separator : Char} (cut : separates separator = true)
    (front back run : List Char) :
    runsAfter separates (front ++ separator :: back) run =
      runsAfter separates (front ++ [separator]) run ++ runsAfter separates back [] := by
  induction front generalizing run with
  | nil =>
      simp only [List.nil_append, runsAfter, cut, if_true]
      split <;> simp
  | cons character front ih =>
      simp only [List.cons_append, runsAfter]
      split
      · split
        · exact ih []
        · rw [ih, List.cons_append]
      · exact ih _

/-- A separator at the end makes no further run. -/
theorem runsAfter_concat {separator : Char} (cut : separates separator = true)
    (front run : List Char) :
    runsAfter separates (front ++ [separator]) run = runsAfter separates front run := by
  induction front generalizing run with
  | nil => simp [runsAfter, cut]
  | cons character front ih =>
      simp only [List.cons_append, runsAfter]
      split
      · split
        · exact ih []
        · rw [ih]
      · exact ih _

/-- A word is its own only run. -/
theorem runsAfter_of_none {word run : List Char} (proper : run ++ word ≠ [])
    (whole : ∀ character ∈ word, separates character = false) :
    runsAfter separates word run = [run.reverse ++ word] := by
  induction word generalizing run with
  | nil =>
      have held : run.isEmpty = false := by
        rw [List.isEmpty_eq_false_iff]
        simpa using proper
      rw [runsAfter, held, List.append_nil]
      rfl
  | cons character word ih =>
      rw [runsAfter, whole character List.mem_cons_self, if_neg (by simp),
        ih (by simp) fun other member => whole other (List.mem_cons_of_mem _ member)]
      simp

end Text

namespace Path

/-- A text that can be the name of a file: not empty, no dots alone, and no slash. -/
structure IsName (name : String) : Prop where
  proper : isDots name = false
  whole : ∀ character ∈ name.toList, character ≠ '/'
  inhabited : name.toList ≠ []

theorem IsName.steps_eq {name : String} (plain : IsName name) :
    Text.runsAfter (· == '/') name.toList [] = [name.toList] :=
  Text.runsAfter_of_none (by simpa using plain.inhabited) fun character member => by
    simpa using plain.whole character member

/-- The text of a name in a folder takes the steps of the folder and then the name. -/
theorem steps_joinText (directory : String) {name : String} (plain : IsName name) :
    steps (joinText directory name) = steps directory ++ [name] := by
  have splits := @Text.runsAfter_append (· == '/') '/' rfl
  have ends := @Text.runsAfter_concat (· == '/') '/' rfl
  unfold joinText steps Text.runs
  split
  · rename_i closed
    rw [String.toList_append]
    rw [Bool.or_eq_true, decide_eq_true_eq] at closed
    rcases closed with nothing | ended
    · rw [String.isEmpty_iff.1 nothing]
      simp [plain.steps_eq, Text.runsAfter]
    · obtain ⟨front, shape⟩ := List.getLast?_eq_some_iff.1 ended
      rw [shape, List.append_assoc, List.singleton_append, splits,
        plain.steps_eq, List.map_append]
      simp
  · rw [String.toList_append, String.toList_append]
    change (Text.runsAfter _ (directory.toList ++ ['/'] ++ name.toList) []).map String.ofList = _
    rw [List.append_assoc, List.singleton_append, splits,
      ends, plain.steps_eq, List.map_append]
    simp

/-- The text of a name in a folder ends with the name. -/
theorem toList_joinText (directory name : String) :
    ∃ front, (joinText directory name).toList = front ++ name.toList ∧
      ∀ other : String, (joinText directory other).toList = front ++ other.toList := by
  unfold joinText
  split
  · exact ⟨directory.toList, by simp, by simp⟩
  · exact ⟨directory.toList ++ "/".toList, by simp, by simp⟩

end Path

end SortedTable

import Mathlib.Data.List.Chain
import Mathlib.Data.List.Induction
import SortedTable.Proofs.Path
import SortedTable.Text.Blank

namespace SortedTable.Text

variable {text other : String}

/-- A word: at least one character, and none that is blank. -/
structure IsWord (text : String) : Prop where
  inhabited : text.toList ≠ []
  whole : ∀ character ∈ text.toList, isBlank character = false

instance : Decidable (IsWord text) :=
  decidable_of_iff (text.toList ≠ [] ∧ text.toList.all (fun character => !isBlank character) = true)
    ⟨fun ⟨inhabited, whole⟩ => ⟨inhabited, by simpa using whole⟩,
      fun word => ⟨word.inhabited, by simpa using word.whole⟩⟩

/-- A text with a character that is not blank at either end. -/
structure IsTrimmed (text : String) : Prop where
  first : ∃ character, text.toList.head? = some character ∧ isBlank character = false
  last : ∃ character, text.toList.getLast? = some character ∧ isBlank character = false

/-- Every blank in front of another character is a space, and this character is not blank. -/
def IsSpacedOnce (text : String) : Prop :=
  text.toList.IsChain fun character next =>
    isBlank character = true → character = ' ' ∧ isBlank next = false

instance (text : String) : Decidable (IsSpacedOnce text) :=
  inferInstanceAs (Decidable (text.toList.IsChain _))

/-- The words of a text with a single space between any two. -/
def spaced (text : String) : String := " ".intercalate (words text)

theorem words_append_space (front back : String) :
    words (front ++ " " ++ back) = words front ++ words back := by
  have characters : (front ++ " " ++ back).toList = front.toList ++ ' ' :: back.toList := by simp
  have blank : isBlank ' ' = true := by decide
  rw [words, runs, characters, runsAfter_append blank, runsAfter_concat blank, List.map_append]
  rfl

theorem IsWord.words_eq (word : IsWord text) : words text = [text] := by
  rw [words, runs, runsAfter_of_none (by simpa using word.inhabited) word.whole]
  simp

/-- Joined words are cut into the same words again. -/
theorem words_intercalate {list : List String} (proper : ∀ word ∈ list, IsWord word) :
    words (" ".intercalate list) = list := by
  induction list with
  | nil => rfl
  | cons word rest ih =>
      obtain ⟨first, others⟩ := List.forall_mem_cons.1 proper
      cases rest with
      | nil => rw [String.intercalate_singleton, first.words_eq]
      | cons next rest =>
          rw [String.intercalate_cons_cons, words_append_space, first.words_eq, ih others]
          rfl

/-- What is collected of a text are words. -/
theorem isWord_of_mem_runsAfter {characters run word : List Char}
    (whole : ∀ character ∈ run, isBlank character = false)
    (member : word ∈ runsAfter isBlank characters run) : IsWord (String.ofList word) := by
  induction characters generalizing run with
  | nil =>
      rw [runsAfter] at member
      split at member
      · cases member
      · rename_i inhabited
        obtain rfl := List.mem_singleton.1 member
        exact ⟨by simpa using inhabited, by simpa using whole⟩
  | cons character rest ih =>
      rw [runsAfter] at member
      split at member
      · split at member
        · exact ih (by simp) member
        · rename_i inhabited
          rcases List.mem_cons.1 member with rfl | member
          · exact ⟨by simpa using inhabited, by simpa using whole⟩
          · exact ih (by simp) member
      · rename_i proper
        exact ih (by simpa [proper] using whole) member

theorem isWord_of_mem_words {word : String} (member : word ∈ words text) : IsWord word := by
  obtain ⟨run, collected, rfl⟩ := List.mem_map.1 member
  exact isWord_of_mem_runsAfter (by simp) collected

/-- The words stay when what is between them is replaced by single spaces. -/
theorem words_spaced (text : String) : words (spaced text) = words text :=
  words_intercalate fun _ => isWord_of_mem_words

/-- The characters of two words and more behind the first word. -/
theorem toList_intercalate_cons_cons (word next : String) (rest : List String) :
    (" ".intercalate (word :: next :: rest)).toList =
      word.toList ++ ' ' :: (" ".intercalate (next :: rest)).toList := by
  rw [String.intercalate_cons_cons]
  simp

/-- Joined words begin with a character that is not blank. -/
theorem head?_intercalate {word : String} {rest : List String} (proper : IsWord word) :
    ∀ character ∈ (" ".intercalate (word :: rest)).toList.head?, isBlank character = false := by
  intro character first
  refine proper.whole character (List.mem_of_mem_head? ?_)
  cases rest with
  | nil => rwa [String.intercalate_singleton] at first
  | cons next rest =>
      rwa [toList_intercalate_cons_cons, List.head?_append_of_ne_nil _ proper.inhabited] at first

theorem isSpacedOnce_intercalate {list : List String} (proper : ∀ word ∈ list, IsWord word) :
    IsSpacedOnce (" ".intercalate list) := by
  have alone {word : String} (own : IsWord word) : IsSpacedOnce word := by
    refine List.Pairwise.isChain (List.pairwise_of_forall_mem_list fun character member _ _ blank => ?_)
    rw [own.whole character member] at blank
    cases blank
  induction list with
  | nil => exact List.isChain_nil
  | cons word rest ih =>
      obtain ⟨own, others⟩ := List.forall_mem_cons.1 proper
      cases rest with
      | nil =>
          rw [String.intercalate_singleton]
          exact alone own
      | cons next rest =>
          rw [IsSpacedOnce, toList_intercalate_cons_cons, List.isChain_append, List.isChain_cons]
          refine ⟨alone own, ⟨fun character first _ => ?_, ih others⟩, fun character last _ _ blank => ?_⟩
          · exact ⟨rfl, head?_intercalate (others next List.mem_cons_self) character first⟩
          · rw [own.whole character (List.mem_of_getLast? last)] at blank
            cases blank

/-- A text that is spaced once is one of words that are joined. -/
theorem exists_words {characters : List Char}
    (once : characters.IsChain fun character next =>
      isBlank character = true → character = ' ' ∧ isBlank next = false)
    (first : ∃ character, characters.head? = some character ∧ isBlank character = false)
    (last : ∃ character, characters.getLast? = some character ∧ isBlank character = false) :
    ∃ word rest, (∀ other ∈ word :: rest, IsWord other) ∧
      String.ofList characters = " ".intercalate (word :: rest) := by
  -- a word goes on up to a blank, and behind it the next character is the first of a text again
  induction characters using List.twoStepInduction with
  | nil =>
      obtain ⟨character, nothing, -⟩ := first
      cases nothing
  | singleton character =>
      obtain ⟨_, same, proper⟩ := first
      cases same
      refine ⟨String.ofList [character], [], ?_, String.intercalate_singleton.symm⟩
      rw [List.forall_mem_singleton]
      exact ⟨by simp, by simpa using proper⟩
  | cons_cons character next rest ih ih' =>
      obtain ⟨_, same, proper⟩ := first
      cases same
      obtain ⟨-, once⟩ := List.isChain_cons_cons.1 once
      rw [List.getLast?_cons_cons] at last
      have single : IsWord (String.ofList [character]) := ⟨by simp, by simpa using proper⟩
      by_cases blank : isBlank next = true
      · cases rest with
        | nil =>
            obtain ⟨_, same, proper⟩ := last
            cases same
            exact absurd blank (Bool.eq_false_iff.1 proper)
        | cons after rest =>
            obtain ⟨follows, further⟩ := List.isChain_cons_cons.1 once
            obtain ⟨rfl, proper⟩ := follows blank
            rw [List.getLast?_cons_cons] at last
            obtain ⟨word, others, words, joined⟩ := ih further ⟨after, rfl, proper⟩ last
            refine ⟨_, word :: others, List.forall_mem_cons.2 ⟨single, words⟩, ?_⟩
            rw [String.intercalate_cons_cons, ← joined, ← String.toList_inj]
            simp
      · rw [Bool.not_eq_true] at blank
        obtain ⟨word, others, words, joined⟩ := ih' next once ⟨next, rfl, blank⟩ last
        obtain ⟨own, further⟩ := List.forall_mem_cons.1 words
        refine ⟨String.ofList [character] ++ word, others,
          List.forall_mem_cons.2 ⟨⟨by simp, ?_⟩, further⟩, ?_⟩
        · simpa [proper] using own.whole
        · have front : String.ofList (character :: next :: rest) =
              String.ofList [character] ++ String.ofList (next :: rest) := by
            rw [← String.toList_inj]
            simp
          rw [front, joined]
          cases others with
          | nil => rw [String.intercalate_singleton, String.intercalate_singleton]
          | cons other others =>
              rw [String.intercalate_cons_cons, String.intercalate_cons_cons]
              simp only [String.append_assoc]

/-- A text is the text of its words exactly if it is spaced once. -/
theorem spaced_eq_self_iff (trimmed : IsTrimmed text) : spaced text = text ↔ IsSpacedOnce text := by
  constructor
  · intro same
    rw [← same]
    exact isSpacedOnce_intercalate fun _ => isWord_of_mem_words
  · intro once
    obtain ⟨word, rest, proper, joined⟩ := exists_words once trimmed.first trimmed.last
    rw [String.ofList_toList] at joined
    rw [spaced, joined, words_intercalate proper]

/-- Only blanks make no words. -/
theorem isBlank_of_runsAfter {characters run : List Char}
    (nothing : runsAfter isBlank characters run = []) :
    run = [] ∧ ∀ character ∈ characters, isBlank character = true := by
  induction characters generalizing run with
  | nil =>
      rw [runsAfter] at nothing
      split at nothing
      · rename_i empty
        exact ⟨List.isEmpty_iff.1 empty, by simp⟩
      · cases nothing
  | cons character rest ih =>
      rw [runsAfter] at nothing
      split at nothing
      · rename_i blank
        split at nothing
        · rename_i empty
          exact ⟨List.isEmpty_iff.1 empty, List.forall_mem_cons.2 ⟨blank, (ih nothing).2⟩⟩
        · cases nothing
      · exact absurd (ih nothing).1 (List.cons_ne_nil _ _)

theorem IsTrimmed.words_ne_nil (trimmed : IsTrimmed text) : words text ≠ [] := by
  intro nothing
  obtain ⟨character, first, proper⟩ := trimmed.first
  have blank := (isBlank_of_runsAfter (List.map_eq_nil_iff.1 nothing)).2 character
    (List.mem_of_mem_head? first)
  rw [proper] at blank
  cases blank

theorem spaced_eq_spaced_iff : spaced text = spaced other ↔ words text = words other := by
  constructor
  · intro same
    rw [← words_spaced, same, words_spaced]
  · intro same
    rw [spaced, spaced, same]

end SortedTable.Text

import Mathlib.Data.List.Pairwise
import SortedTable.Proofs.Disk.Folders
import SortedTable.Proofs.Writer.Reopening

namespace SortedTable

namespace Descriptor

variable {directory name : String} {names : List String} {descriptor : Descriptor}
  {component : Component} {disk : Disk} {folder : Path}

/-- The names that are read are the spellings of final names. -/
theorem ofFileName?_eq_some_iff :
    ofFileName? directory name = some (descriptor, component) ↔
      descriptor.directory = directory ∧
        ∃ signed zeros, name = descriptor.spelling component signed zeros := by
  refine ⟨exists_spelling_of_ofFileName?, ?_⟩
  rintro ⟨rfl, signed, zeros, rfl⟩
  exact descriptor.ofFileName?_of_spelling component signed zeros

/-- Only the final name has neither a plus nor zeros in front of the generation. -/
theorem spelling_eq_fileName_iff {signed : Bool} {zeros : Nat} :
    descriptor.spelling component signed zeros = descriptor.fileName component ↔
      signed = false ∧ zeros = 0 := by
  constructor
  · intro same
    have lengths := congrArg (fun text => text.toList.length) same
    simp only [toList_spelling, toList_fileName, Text.toList_numeral, Text.numeralDigits,
      List.length_append, List.length_cons, List.length_replicate] at lengths
    cases signed with
    | false =>
        refine ⟨rfl, ?_⟩
        rw [if_neg Bool.false_ne_true, List.length_nil] at lengths
        omega
    | true =>
        rw [if_pos rfl, List.length_singleton] at lengths
        omega
  · rintro ⟨rfl, rfl⟩
    exact descriptor.spelling_false_zero component

/-- A table is committed if its list of contents has its final name, unless the path is too long. -/
theorem isCommitted_iff (resides : descriptor.ResidesIn disk folder) :
    descriptor.isCommitted disk = true ↔ Path.IsText (descriptor.finalPath .contents) ∧
      disk.node? (folder ++ [descriptor.fileName .contents]) ≠ none := by
  have found := @find_pathOf_iff descriptor disk folder true .contents
  rw [isCommitted, Disk.exists?, Option.isSome_iff_exists]
  simp only [Except.toOption_eq_some_iff, ← pathOf_true]
  constructor
  · rintro ⟨node, same⟩
    obtain ⟨text, held⟩ := (found resides).1 same
    exact ⟨text, fun nothing => Option.some_ne_none node (held.symm.trans nothing)⟩
  · rintro ⟨text, there⟩
    obtain ⟨node, held⟩ := Option.ne_none_iff_exists'.1 there
    exact ⟨node, (found resides).2 ⟨text, held⟩⟩

/-- No table is listed twice if no two names are spellings for one list of contents. -/
theorem nodup_committed_iff (distinct : names.Nodup) :
    (committed directory names).Nodup ↔
      ∀ name ∈ names, ∀ other ∈ names, ∀ descriptor,
        ofFileName? directory name = some (descriptor, .contents) →
        ofFileName? directory other = some (descriptor, .contents) → name = other := by
  rw [committed_eq, (List.mergeSort_perm _ _).nodup_iff, List.Nodup, List.pairwise_filterMap]
  have symmetric : Std.Symm fun name other : String =>
      ∀ descriptor, contentsOf? directory name = some descriptor →
        ∀ descriptor', contentsOf? directory other = some descriptor' → descriptor ≠ descriptor' :=
    ⟨fun name other apart descriptor read descriptor' read' same =>
      apart descriptor' read' descriptor read same.symm⟩
  constructor
  · intro apart name member other member' descriptor read read'
    by_contra differs
    exact apart.forall member member' differs descriptor (contentsOf?_eq_some_iff.2 read) descriptor
      (contentsOf?_eq_some_iff.2 read') rfl
  · intro single
    refine distinct.imp_of_mem fun member member' differs descriptor read descriptor' read' => ?_
    rintro rfl
    exact differs (single _ member _ member' descriptor (contentsOf?_eq_some_iff.1 read)
      (contentsOf?_eq_some_iff.1 read'))

/-- The names that are read are the final ones and those with a plus or zeros before the generation. -/
theorem listed_by_spelling (listed : disk.names directory = .ok names) (distinct : names.Nodup) :
    (∀ name descriptor component, ofFileName? directory name = some (descriptor, component) ↔
      descriptor.directory = directory ∧
        ∃ signed zeros, name = descriptor.spelling component signed zeros) ∧
    (∀ (descriptor : Descriptor) component signed zeros,
      descriptor.spelling component signed zeros = descriptor.fileName component ↔
        signed = false ∧ zeros = 0) ∧
    (∀ descriptor ∈ committed directory names, descriptor.isCommitted disk = true ↔
      Path.IsText (descriptor.finalPath .contents) ∧ descriptor.fileName .contents ∈ names) ∧
    ((committed directory names).Nodup ↔ ∀ name ∈ names, ∀ other ∈ names, ∀ descriptor,
      ofFileName? directory name = some (descriptor, .contents) →
      ofFileName? directory other = some (descriptor, .contents) → name = other) ∧
    ((∀ name ∈ names, ∀ descriptor, ofFileName? directory name = some (descriptor, .contents) →
        name = descriptor.fileName .contents) →
      (committed directory names).Nodup ∧ ∀ descriptor ∈ committed directory names,
        Path.IsText (descriptor.finalPath .contents) → descriptor.isCommitted disk = true) := by
  obtain ⟨folder, located, found⟩ := Disk.mem_names_iff listed
  have committed_iff {descriptor : Descriptor} (member : descriptor ∈ committed directory names) :
      descriptor.isCommitted disk = true ↔
        Path.IsText (descriptor.finalPath .contents) ∧ descriptor.fileName .contents ∈ names := by
    obtain ⟨name, -, read⟩ := mem_committed_iff.1 member
    obtain rfl := directory_of_ofFileName? read
    rw [isCommitted_iff (Disk.enter_of_locate located),
      found _ (descriptor.isName_fileName .contents).proper]
  refine ⟨fun _ _ _ => ofFileName?_eq_some_iff, fun _ _ _ _ => spelling_eq_fileName_iff,
    fun _ => committed_iff, nodup_committed_iff distinct, fun plain => ⟨?_, ?_⟩⟩
  · refine (nodup_committed_iff distinct).2 fun name member other member' descriptor read read' => ?_
    rw [plain name member descriptor read, plain other member' descriptor read']
  · intro descriptor member text
    obtain ⟨name, present, read⟩ := mem_committed_iff.1 member
    rw [plain name present descriptor read] at present
    exact (committed_iff member).2 ⟨text, present⟩

/-- A folder with two committed tables and the data of a third one. -/
def plainFolder : Disk :=
  Disk.empty.applyAll [.createFolder ["t"], .create ["t", "ma-20-big-TOC.txt"] 0,
    .create ["t", "nb-1-big-TOC.txt"] 1, .create ["t", "nb-3-big-Data.db"] 2]

theorem listed_by_spelling_plainFolder :
    plainFolder.names "t" = .ok ["nb-3-big-Data.db", "nb-1-big-TOC.txt", "ma-20-big-TOC.txt"] ∧
      committed "t" ["nb-3-big-Data.db", "nb-1-big-TOC.txt", "ma-20-big-TOC.txt"] =
        [⟨"t", 1, .nb⟩, ⟨"t", 20, .ma⟩] ∧
      ∀ descriptor ∈ [(⟨"t", 1, .nb⟩ : Descriptor), ⟨"t", 20, .ma⟩],
        descriptor.isCommitted plainFolder = true := by
  have evaluated :
      plainFolder.names "t" = .ok ["nb-3-big-Data.db", "nb-1-big-TOC.txt", "ma-20-big-TOC.txt"] ∧
      ["nb-3-big-Data.db", "nb-1-big-TOC.txt", "ma-20-big-TOC.txt"].filterMap (contentsOf? "t") =
        [⟨"t", 1, .nb⟩, ⟨"t", 20, .ma⟩] ∧
      (∀ name ∈ ["nb-3-big-Data.db", "nb-1-big-TOC.txt", "ma-20-big-TOC.txt"],
        ∀ descriptor ∈ contentsOf? "t" name, name = descriptor.fileName .contents) ∧
      ∀ descriptor ∈ [(⟨"t", 1, .nb⟩ : Descriptor), ⟨"t", 20, .ma⟩],
        Path.IsText (descriptor.finalPath .contents) := by decide +kernel
  obtain ⟨listed, read, plain, texts⟩ := evaluated
  have tables := committed_of_pairwise read (by decide)
  obtain ⟨-, -, -, -, whole⟩ := listed_by_spelling listed (by decide)
  obtain ⟨-, committed⟩ := whole fun name member descriptor found =>
    plain name member descriptor (contentsOf?_eq_some_iff.2 found)
  rw [tables] at committed
  exact ⟨listed, tables, fun descriptor member => committed descriptor member (texts _ member)⟩

/-- A folder in which a list of contents has a plus in front of its generation. -/
def signedFolder : Disk :=
  Disk.empty.applyAll [.createFolder ["t"], .create ["t", "nb-+4-big-TOC.txt"] 0]

/-- A name with a plus or a zero in front of the generation is listed, although it is no final name. -/
theorem listed_under_other_spellings :
    ofFileName? "t" "nb-+4-big-TOC.txt" = some (⟨"t", 4, .nb⟩, .contents) ∧
      (⟨"t", 4, .nb⟩ : Descriptor).fileName .contents ≠ "nb-+4-big-TOC.txt" ∧
      signedFolder.names "t" = .ok ["nb-+4-big-TOC.txt"] ∧
      committed "t" ["nb-+4-big-TOC.txt"] = [⟨"t", 4, .nb⟩] ∧
      (⟨"t", 4, .nb⟩ : Descriptor).isCommitted signedFolder = false ∧
      committed "t" ["nb-4-big-TOC.txt", "nb-04-big-TOC.txt"] =
        [⟨"t", 4, .nb⟩, ⟨"t", 4, .nb⟩] := by
  have evaluated :
      ofFileName? "t" "nb-+4-big-TOC.txt" = some (⟨"t", 4, .nb⟩, .contents) ∧
      (⟨"t", 4, .nb⟩ : Descriptor).fileName .contents ≠ "nb-+4-big-TOC.txt" ∧
      signedFolder.names "t" = .ok ["nb-+4-big-TOC.txt"] ∧
      ["nb-+4-big-TOC.txt"].filterMap (contentsOf? "t") = [⟨"t", 4, .nb⟩] ∧
      (⟨"t", 4, .nb⟩ : Descriptor).isCommitted signedFolder = false ∧
      ["nb-4-big-TOC.txt", "nb-04-big-TOC.txt"].filterMap (contentsOf? "t") =
        [⟨"t", 4, .nb⟩, ⟨"t", 4, .nb⟩] := by decide +kernel
  obtain ⟨read, differs, listed, single, uncommitted, twice⟩ := evaluated
  exact ⟨read, differs, listed, committed_of_pairwise single (by decide), uncommitted,
    committed_of_pairwise twice (by decide)⟩

end Descriptor

end SortedTable

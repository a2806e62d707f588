import SortedTable.Descriptor
import SortedTable.Proofs.Outcome
import SortedTable.Proofs.Path
import SortedTable.Proofs.Text.Numeral

namespace SortedTable

namespace Text

theorem utf8ByteSize_ofList_le (characters : List Char) :
    (String.ofList characters).utf8ByteSize ≤ 4 * characters.length := by
  induction characters with
  | nil => decide
  | cons character rest ih =>
      have cut : String.ofList (character :: rest) = String.singleton character ++ String.ofList rest := by
        rw [← String.toList_inj]
        simp
      have single : character.utf8Size ≤ 4 := by
        rcases character.utf8Size_eq with size | size | size | size <;> omega
      rw [cut, String.utf8ByteSize_append, String.utf8ByteSize_singleton, List.length_cons]
      omega

end Text

theorem cutAtDash_append {front : List Char} (rest : List Char) (whole : '-' ∉ front) :
    cutAtDash (front ++ '-' :: rest) = some (front, rest) := by
  induction front with
  | nil => simp [cutAtDash]
  | cons character front ih =>
      obtain ⟨other, whole⟩ := not_or.1 (mt List.mem_cons.2 whole)
      rw [List.cons_append, cutAtDash, if_neg (Ne.symm other), ih whole]
      rfl

namespace Descriptor

/-- A final name in which the generation is written with a plus, if it is signed, and zeros in front. -/
def spelling (descriptor : Descriptor) (component : Component) (signed : Bool) (zeros : Nat) : String :=
  s!"{descriptor.version.name}-{Text.numeral signed zeros descriptor.generation.toNat}-" ++
    s!"{layoutName}-{component.fileName}"

/-- The characters of a spelling. -/
theorem toList_spelling (descriptor : Descriptor) (component : Component) (signed : Bool)
    (zeros : Nat) : (descriptor.spelling component signed zeros).toList =
      descriptor.version.name.toList ++
        '-' :: ((Text.numeral signed zeros descriptor.generation.toNat).toList ++
          '-' :: (layoutName.toList ++ '-' :: component.fileName.toList)) := by
  have dash : "-".toList = ['-'] := rfl
  change ((descriptor.version.name ++ "-" ++ Text.numeral signed zeros descriptor.generation.toNat ++
    "-") ++ (layoutName ++ "-" ++ component.fileName)).toList = _
  simp only [String.toList_append, dash, List.append_assoc, List.nil_append, List.cons_append]

/-- The characters of a final name. -/
theorem toList_fileName (descriptor : Descriptor) (component : Component) :
    (descriptor.fileName component).toList = descriptor.version.name.toList ++
      '-' :: (descriptor.generation.toNat.repr.toList ++
        '-' :: (layoutName.toList ++ '-' :: component.fileName.toList)) := by
  have decimal : (toString descriptor.generation).toList = descriptor.generation.toNat.repr.toList := rfl
  have dash : "-".toList = ['-'] := rfl
  change (descriptor.version.name ++ "-" ++ toString descriptor.generation ++ "-" ++ layoutName ++
    "-" ++ component.fileName).toList = _
  simp only [String.toList_append, decimal, dash, List.append_assoc, List.nil_append,
    List.cons_append]

/-- The final name is the spelling without a plus and without zeros. -/
theorem spelling_false_zero (descriptor : Descriptor) (component : Component) :
    descriptor.spelling component false 0 = descriptor.fileName component := by
  rw [← String.toList_inj, toList_spelling, toList_fileName, Text.numeral_false_zero]

theorem withoutMark?_spelling (descriptor : Descriptor) (component : Component) (signed : Bool)
    (zeros : Nat) : withoutMark? (descriptor.spelling component signed zeros) = none := by
  unfold withoutMark?
  rw [toList_spelling, if_neg]
  cases descriptor.version <;> simp [temporaryMark, Version.name]

theorem withoutMark?_fileName (descriptor : Descriptor) (component : Component) :
    withoutMark? (descriptor.fileName component) = none := by
  rw [← spelling_false_zero]
  exact withoutMark?_spelling descriptor component false 0

theorem withoutMark?_temporaryName (descriptor : Descriptor) (component : Component) :
    withoutMark? (descriptor.temporaryName component) = some (descriptor.fileName component) := by
  have four : temporaryMark.length = temporaryMark.toList.length := rfl
  unfold withoutMark? temporaryName
  rw [String.toList_append, if_pos (by simp), four, List.drop_left, String.ofList_toList]

/-- A spelling belongs to the table and the component that it was made from. -/
theorem ofFileName?_of_spelling (descriptor : Descriptor) (component : Component) (signed : Bool)
    (zeros : Nat) : ofFileName? descriptor.directory (descriptor.spelling component signed zeros) =
      some (descriptor, component) := by
  obtain ⟨directory, generation, version⟩ := descriptor
  have undashed : '-' ∉ version.name.toList := by
    cases version <;> decide
  have decimal : '-' ∉ (Text.numeral signed zeros generation.toNat).toList := by
    intro member
    rcases Text.eq_plus_or_isDigit_of_mem_numeral member with plus | digit
    · exact absurd plus (by decide)
    · exact absurd digit (by decide)
  have read : Text.readWord64 (Text.numeral signed zeros generation.toNat) = .ok generation :=
    Text.readWord64_eq_ok_iff.2 ⟨signed, zeros, rfl⟩
  unfold ofFileName?
  rw [withoutMark?_spelling, if_neg (by simp), toList_spelling]
  dsimp only
  rw [cutAtDash_append _ undashed, Option.bind_eq_bind, Option.bind_some]
  dsimp only
  rw [cutAtDash_append _ decimal, Option.bind_eq_bind, Option.bind_some]
  dsimp only
  rw [cutAtDash_append _ (by decide), Option.bind_eq_bind, Option.bind_some]
  dsimp only
  rw [String.ofList_toList, String.ofList_toList, String.ofList_toList, String.ofList_toList,
    Version.ofName?_name, read, Component.ofFileName?_fileName]
  rfl

/-- A name that belongs to a table is a spelling of its final name. -/
theorem exists_spelling_of_ofFileName? {directory name : String} {descriptor : Descriptor}
    {component : Component} (read : ofFileName? directory name = some (descriptor, component)) :
    descriptor.directory = directory ∧
      ∃ signed zeros, name = descriptor.spelling component signed zeros := by
  unfold ofFileName? at read
  split at read
  · cases read
  · simp only [Option.bind_eq_bind, Option.bind_eq_some_iff] at read
    obtain ⟨⟨first, rest⟩, cut, ⟨second, rest'⟩, cut', ⟨third, last⟩, cut'', version, named,
      generation, counted, read⟩ := read
    dsimp only at cut' cut'' named counted read
    split at read
    · rename_i layout
      obtain ⟨found, ending, same⟩ := Option.bind_eq_some_iff.1 read
      cases same
      obtain ⟨signed, zeros, written⟩ :=
        Text.readWord64_eq_ok_iff.1 (Except.toOption_eq_some_iff.1 counted)
      have version' := Version.eq_name_of_ofName? named
      have component' := Component.eq_fileName_of_ofFileName? ending
      rw [← String.toList_inj, String.toList_ofList] at version' component' written layout
      refine ⟨rfl, signed, zeros, ?_⟩
      rw [← String.toList_inj, toList_spelling, eq_of_cutAtDash cut, eq_of_cutAtDash cut',
        eq_of_cutAtDash cut'', version', written, layout, component']
    · cases read

theorem directory_of_ofFileName? {directory name : String} {descriptor : Descriptor}
    {component : Component} (read : ofFileName? directory name = some (descriptor, component)) :
    descriptor.directory = directory :=
  (exists_spelling_of_ofFileName? read).1

/-- A final name belongs to the table and the component that it was made from. -/
theorem ofFileName?_of_fileName (descriptor : Descriptor) (component : Component) :
    ofFileName? descriptor.directory (descriptor.fileName component) = some (descriptor, component) := by
  rw [← spelling_false_zero]
  exact ofFileName?_of_spelling descriptor component false 0

/-- The name of an unfinished file belongs to no table. -/
theorem ofFileName?_of_temporaryName (descriptor : Descriptor) (component : Component)
    (directory : String) : ofFileName? directory (descriptor.temporaryName component) = none := by
  unfold ofFileName?
  rw [withoutMark?_temporaryName]
  rfl

/-- Tables of one folder that share a final name are the same, and so are the components. -/
theorem fileName_inj {left right : Descriptor} {component other : Component}
    (folder : left.directory = right.directory)
    (same : left.fileName component = right.fileName other) : left = right ∧ component = other := by
  have found := ofFileName?_of_fileName left component
  rw [same, folder, ofFileName?_of_fileName right other] at found
  cases found
  exact ⟨rfl, rfl⟩

theorem temporaryName_inj {left right : Descriptor} {component other : Component}
    (folder : left.directory = right.directory)
    (same : left.temporaryName component = right.temporaryName other) :
    left = right ∧ component = other := by
  have found := withoutMark?_temporaryName left component
  rw [same, withoutMark?_temporaryName right other] at found
  exact fileName_inj folder (Option.some.inj found).symm

theorem fileName_ne_temporaryName (left right : Descriptor) (component other : Component) :
    left.fileName component ≠ right.temporaryName other := by
  intro same
  have found := withoutMark?_fileName left component
  rw [same, withoutMark?_temporaryName right other] at found
  cases found

/-- A text all of whose characters pass a check has neither a slash nor the end of a text. -/
theorem plain_of_all {text : List Char} {character : Char}
    (checked : text.all (fun character => character != '/' && character != '\x00') = true)
    (member : character ∈ text) : character ≠ '/' ∧ character ≠ '\x00' := by
  have passed := List.all_eq_true.1 checked character member
  rw [Bool.and_eq_true, bne_iff_ne, bne_iff_ne] at passed
  exact passed

/-- The characters of a final name are neither a slash nor the end of a text. -/
theorem plain_of_mem_fileName {descriptor : Descriptor} {component : Component} {character : Char}
    (member : character ∈ (descriptor.fileName component).toList) :
    character ≠ '/' ∧ character ≠ '\x00' := by
  have version : ∀ character ∈ descriptor.version.name.toList,
      character ≠ '/' ∧ character ≠ '\x00' := by
    intro character
    apply plain_of_all
    cases descriptor.version <;> decide
  have ending : ∀ character ∈ component.fileName.toList,
      character ≠ '/' ∧ character ≠ '\x00' := by
    intro character
    apply plain_of_all
    cases component <;> decide
  have layout : ∀ character ∈ layoutName.toList, character ≠ '/' ∧ character ≠ '\x00' :=
    fun character => plain_of_all (by decide)
  have dash : '-' ≠ '/' ∧ '-' ≠ '\x00' := by decide
  rw [toList_fileName] at member
  simp only [List.mem_append, List.mem_cons] at member
  rcases member with member | rfl | member | rfl | member | rfl | member
  · exact version character member
  · exact dash
  · rw [← Text.numeral_false_zero] at member
    rcases Text.eq_plus_or_isDigit_of_mem_numeral member with rfl | digit
    · decide
    · constructor <;> rintro rfl <;> exact absurd digit (by decide)
  · exact dash
  · exact layout character member
  · exact dash
  · exact ending character member

theorem plain_of_mem_temporaryName {descriptor : Descriptor} {component : Component}
    {character : Char} (member : character ∈ (descriptor.temporaryName component).toList) :
    character ≠ '/' ∧ character ≠ '\x00' := by
  have mark : ∀ character ∈ temporaryMark.toList, character ≠ '/' ∧ character ≠ '\x00' :=
    fun character => plain_of_all (by decide)
  rw [temporaryName, String.toList_append] at member
  rcases List.mem_append.1 member with member | member
  · exact mark character member
  · exact plain_of_mem_fileName member

theorem isName_fileName (descriptor : Descriptor) (component : Component) :
    Path.IsName (descriptor.fileName component) where
  proper := by
    have first : (descriptor.fileName component).toList.head? ≠ some '.' := by
      rw [toList_fileName]
      cases descriptor.version <;> simp [Version.name]
    rw [Path.isDots, Bool.or_eq_false_iff, decide_eq_false_iff_not, decide_eq_false_iff_not]
    constructor <;> intro same <;> exact first (by rw [same]; rfl)
  whole := fun _ member => (plain_of_mem_fileName member).1
  inhabited := by simp [toList_fileName]

theorem isName_temporaryName (descriptor : Descriptor) (component : Component) :
    Path.IsName (descriptor.temporaryName component) where
  proper := by
    have first : (descriptor.temporaryName component).toList.head? ≠ some '.' := by
      simp [temporaryName, temporaryMark]
    rw [Path.isDots, Bool.or_eq_false_iff, decide_eq_false_iff_not, decide_eq_false_iff_not]
    constructor <;> intro same <;> exact first (by rw [same]; rfl)
  whole := fun _ member => (plain_of_mem_temporaryName member).1
  inhabited := by simp [temporaryName, temporaryMark]

/-- The names of a table's files are short enough for a folder. -/
theorem utf8ByteSize_temporaryName_le (descriptor : Descriptor) (component : Component) :
    (descriptor.temporaryName component).utf8ByteSize ≤ Path.maxNameBytes := by
  have decimal : descriptor.generation.toNat.repr.toList.length ≤ 20 := by
    rw [String.length_toList]
    exact (Nat.length_repr_le_iff (by decide)).2
      (Nat.lt_of_lt_of_le descriptor.generation.toNat_lt (by decide))
  have version : descriptor.version.name.toList.length = 2 := by
    cases descriptor.version <;> rfl
  have layout : layoutName.toList.length = 3 := rfl
  have mark : temporaryMark.toList.length = 4 := rfl
  have ending : component.fileName.toList.length ≤ 13 := by
    cases component <;> decide
  have bytes := Text.utf8ByteSize_ofList_le (descriptor.temporaryName component).toList
  have limit : Path.maxNameBytes = 255 := rfl
  rw [String.ofList_toList, temporaryName, String.toList_append, toList_fileName] at bytes
  simp only [List.length_append, List.length_cons] at bytes
  rw [temporaryName]
  omega

theorem utf8ByteSize_fileName_le (descriptor : Descriptor) (component : Component) :
    (descriptor.fileName component).utf8ByteSize ≤ Path.maxNameBytes := by
  have longer := utf8ByteSize_temporaryName_le descriptor component
  rw [temporaryName, String.utf8ByteSize_append] at longer
  omega

/-- The name of a component's file, final or not. -/
def nameOf (descriptor : Descriptor) (isFinal : Bool) (component : Component) : String :=
  if isFinal then descriptor.fileName component else descriptor.temporaryName component

/-- The path of a component's file, final or not. -/
def pathOf (descriptor : Descriptor) (isFinal : Bool) (component : Component) : String :=
  Path.joinText descriptor.directory (descriptor.nameOf isFinal component)

theorem pathOf_false (descriptor : Descriptor) (component : Component) :
    descriptor.pathOf false component = descriptor.temporaryPath component := rfl

theorem pathOf_true (descriptor : Descriptor) (component : Component) :
    descriptor.pathOf true component = descriptor.finalPath component := rfl

theorem isName_nameOf (descriptor : Descriptor) (isFinal : Bool) (component : Component) :
    Path.IsName (descriptor.nameOf isFinal component) := by
  cases isFinal with
  | false => exact isName_temporaryName descriptor component
  | true => exact isName_fileName descriptor component

theorem utf8ByteSize_nameOf_le (descriptor : Descriptor) (isFinal : Bool) (component : Component) :
    (descriptor.nameOf isFinal component).utf8ByteSize ≤ Path.maxNameBytes := by
  cases isFinal with
  | false => exact utf8ByteSize_temporaryName_le descriptor component
  | true => exact utf8ByteSize_fileName_le descriptor component

/-- A name in a folder decides the table, the component, and whether the file is finished. -/
theorem nameOf_inj {left right : Descriptor} {isFinal isFinal' : Bool} {component other : Component}
    (folder : left.directory = right.directory)
    (same : left.nameOf isFinal component = right.nameOf isFinal' other) :
    left = right ∧ isFinal = isFinal' ∧ component = other := by
  cases isFinal <;> cases isFinal'
  · obtain ⟨table, component⟩ := temporaryName_inj folder same
    exact ⟨table, rfl, component⟩
  · exact absurd same.symm (fileName_ne_temporaryName right left other component)
  · exact absurd same (fileName_ne_temporaryName left right component other)
  · obtain ⟨table, component⟩ := fileName_inj folder same
    exact ⟨table, rfl, component⟩

/-- In one folder a path decides the component and whether the file is finished. -/
theorem eq_of_concat_nameOf {descriptor : Descriptor} {folder : Path} {isFinal isFinal' : Bool}
    {component other : Component}
    (same : folder ++ [descriptor.nameOf isFinal component] =
      folder ++ [descriptor.nameOf isFinal' other]) : isFinal = isFinal' ∧ component = other := by
  rw [List.append_right_inj, List.singleton_inj] at same
  exact (nameOf_inj rfl same).2

/-- Dots are no name of a file of a table. -/
theorem unread_of_isDots {name : String} (dots : Path.isDots name = true) (directory : String) :
    ofFileName? directory name = none ∧ generationOf? name = none := by
  rw [Path.isDots, Bool.or_eq_true, decide_eq_true_iff, decide_eq_true_iff] at dots
  rcases dots with rfl | rfl <;> exact ⟨rfl, rfl⟩

theorem isDots_of_ofFileName? {directory name : String} {found : Descriptor × Component}
    (read : ofFileName? directory name = some found) : Path.isDots name = false := by
  refine Bool.eq_false_iff.2 fun dots => ?_
  rw [(unread_of_isDots dots directory).1] at read
  cases read

theorem isDots_of_generationOf? {name : String} {generation : UInt64}
    (read : generationOf? name = some generation) : Path.isDots name = false := by
  refine Bool.eq_false_iff.2 fun dots => ?_
  rw [(unread_of_isDots dots "").2] at read
  cases read

/-- A name that is read as that of a table belongs to the generation of the table. -/
theorem generationOf?_of_ofFileName? {directory name : String} {descriptor : Descriptor}
    {component : Component} (read : ofFileName? directory name = some (descriptor, component)) :
    generationOf? name = some descriptor.generation := by
  obtain ⟨-, signed, zeros, rfl⟩ := exists_spelling_of_ofFileName? read
  have other : ofFileName? "" (descriptor.spelling component signed zeros) =
      some (⟨"", descriptor.generation, descriptor.version⟩, component) :=
    ofFileName?_of_spelling ⟨"", descriptor.generation, descriptor.version⟩ component signed zeros
  rw [generationOf?, withoutMark?_spelling, Option.getD_none, other]
  rfl

/-- A name of a table's file, finished or not, belongs to the generation of the table. -/
theorem generationOf?_nameOf (descriptor : Descriptor) (isFinal : Bool) (component : Component) :
    generationOf? (descriptor.nameOf isFinal component) = some descriptor.generation := by
  have final : generationOf? (descriptor.fileName component) = some descriptor.generation :=
    generationOf?_of_ofFileName? (ofFileName?_of_fileName descriptor component)
  cases isFinal with
  | false =>
      rw [generationOf?, withoutMark?_fileName] at final
      rw [generationOf?, nameOf, if_neg nofun, withoutMark?_temporaryName]
      exact final
  | true => exact final

/-- Of the names of a table's files only the final ones are read as such. -/
theorem ofFileName?_nameOf {descriptor other : Descriptor} {isFinal : Bool}
    {component component' : Component}
    (read : ofFileName? descriptor.directory (descriptor.nameOf isFinal component) =
      some (other, component')) : other = descriptor := by
  cases isFinal with
  | false =>
      rw [nameOf, if_neg nofun, ofFileName?, withoutMark?_temporaryName,
        if_pos Option.isSome_some] at read
      cases read
  | true =>
      rw [nameOf, if_pos rfl, ofFileName?_of_fileName] at read
      cases read
      rfl

/-- The table whose list of contents a name belongs to. -/
def contentsOf? (directory name : String) : Option Descriptor :=
  match ofFileName? directory name with
  | some (descriptor, .contents) => some descriptor
  | _ => none

theorem contentsOf?_eq_some_iff {directory name : String} {descriptor : Descriptor} :
    contentsOf? directory name = some descriptor ↔
      ofFileName? directory name = some (descriptor, .contents) := by
  unfold contentsOf?
  rcases ofFileName? directory name with - | ⟨other, component⟩
  · exact ⟨nofun, nofun⟩
  · cases component <;> simp

/-- The committed tables are those of the lists of contents, by generation. -/
theorem committed_eq (directory : String) (names : List String) :
    committed directory names = (names.filterMap (contentsOf? directory)).mergeSort
      fun left right => left.generation ≤ right.generation := rfl

/-- Tables that are read in the order of their generations are listed as they are read. -/
theorem committed_of_pairwise {directory : String} {names : List String} {tables : List Descriptor}
    (read : names.filterMap (contentsOf? directory) = tables)
    (ordered : tables.Pairwise fun left right => left.generation ≤ right.generation) :
    committed directory names = tables := by
  rw [committed_eq, read]
  exact List.mergeSort_of_pairwise (ordered.imp fun order => decide_eq_true order)

theorem mem_committed_iff {directory : String} {names : List String} {descriptor : Descriptor} :
    descriptor ∈ committed directory names ↔
      ∃ name ∈ names, ofFileName? directory name = some (descriptor, .contents) := by
  simp only [committed_eq, List.mem_mergeSort, List.mem_filterMap, contentsOf?_eq_some_iff]

theorem pairwise_committed (directory : String) (names : List String) :
    (committed directory names).Pairwise fun left right => left.generation ≤ right.generation := by
  refine (List.pairwise_mergeSort ?_ ?_ _).imp of_decide_eq_true
  · intro first second third order order'
    rw [decide_eq_true_iff] at order order' ⊢
    exact UInt64.le_trans order order'
  · intro first second
    rw [Bool.or_eq_true, decide_eq_true_iff, decide_eq_true_iff]
    exact UInt64.le_total _ _

/-- The highest generation is below a number exactly if all are. -/
theorem foldl_max_lt_iff {generations : List UInt64} {start : UInt64} {bound : Nat} :
    (generations.foldl max start).toNat < bound ↔
      start.toNat < bound ∧ ∀ generation ∈ generations, generation.toNat < bound := by
  induction generations generalizing start with
  | nil => simp
  | cons generation rest ih =>
      have greatest : (max start generation).toNat < bound ↔
          start.toNat < bound ∧ generation.toNat < bound := by
        have same : max start generation =
            if start ≤ generation then generation else start := rfl
        rw [same]
        split <;> rename_i order <;> rw [UInt64.le_iff_toNat_le] at order <;> omega
      rw [List.foldl_cons, ih, greatest, List.forall_mem_cons, and_assoc]

/-- The next generation is the lowest positive one above those of all names. -/
theorem nextGeneration_le_iff {names : List String} {next bound : UInt64}
    (counted : nextGeneration names = .ok next) :
    next ≤ bound ↔ 0 < bound ∧ ∀ name ∈ names, ∀ generation,
      generationOf? name = some generation → generation < bound := by
  have above := toNat_of_exactSum counted
  have one : (1 : UInt64).toNat = 1 := rfl
  rw [UInt64.le_iff_toNat_le, above, one, Nat.succ_le_iff, foldl_max_lt_iff, ← UInt64.lt_iff_toNat_lt]
  simp only [List.mem_filterMap, ← UInt64.lt_iff_toNat_lt]
  refine and_congr_right fun _ => ⟨fun all name member generation read => ?_, ?_⟩
  · exact all generation ⟨name, member, read⟩
  · rintro all generation ⟨name, member, read⟩
    exact all name member generation read

/-- The next generation is above those of all names. -/
theorem lt_of_nextGeneration {names : List String} {next : UInt64}
    (counted : nextGeneration names = .ok next) {name : String} (member : name ∈ names)
    {generation : UInt64} (read : generationOf? name = some generation) : generation < next :=
  ((nextGeneration_le_iff counted).1 (UInt64.le_refl _)).2 name member generation read

/-- The generation behind which there is none. -/
def lastGeneration : UInt64 := 18446744073709551615

theorem eq_lastGeneration_iff {generation : UInt64} :
    generation = lastGeneration ↔ ¬generation.toNat < UInt64.size - 1 := by
  have last : lastGeneration.toNat = UInt64.size - 1 := rfl
  have bound := generation.toNat_lt_size
  rw [← UInt64.toNat_inj]
  omega

theorem eq_lastGeneration_of_exactSum {generation : UInt64} {cause : Overflow}
    (counted : exactSum generation 1 = .error cause) : generation = lastGeneration := by
  refine eq_lastGeneration_iff.2 fun below => ?_
  have one : (1 : UInt64).toNat = 1 := rfl
  rw [exactSum, if_pos (by omega)] at counted
  cases counted

/-- There is a generation behind the highest one exactly if no name is of the last one. -/
theorem highest_fits_iff {names : List String} :
    ((names.filterMap generationOf?).foldl max 0).toNat + (1 : UInt64).toNat < UInt64.size ↔
      ∀ name ∈ names, generationOf? name ≠ some lastGeneration := by
  have one : (1 : UInt64).toNat = 1 := rfl
  have room : (0 : UInt64).toNat < UInt64.size - 1 := by decide
  rw [one, ← Nat.lt_sub_iff_add_lt, foldl_max_lt_iff, and_iff_right room]
  constructor
  · intro below name member read
    exact eq_lastGeneration_iff.1 rfl (below _ (List.mem_filterMap.2 ⟨name, member, read⟩))
  · intro others generation found
    obtain ⟨name, member, read⟩ := List.mem_filterMap.1 found
    by_contra last
    rw [← eq_lastGeneration_iff] at last
    exact others name member (last ▸ read)

theorem exists_nextGeneration_iff {names : List String} :
    (∃ next, nextGeneration names = .ok next) ↔
      ∀ name ∈ names, generationOf? name ≠ some lastGeneration := by
  rw [← highest_fits_iff, nextGeneration, exactSum]
  split
  · rename_i fits
    exact ⟨fun _ => fits, fun _ => ⟨_, rfl⟩⟩
  · rename_i full
    exact ⟨nofun, fun fits => absurd fits full⟩

theorem nextGeneration_eq_error_iff {names : List String} :
    nextGeneration names = .error .addition ↔
      ∃ name ∈ names, generationOf? name = some lastGeneration := by
  have fits := @highest_fits_iff names
  rw [nextGeneration, exactSum]
  split
  · rename_i below
    refine ⟨nofun, ?_⟩
    rintro ⟨name, member, read⟩
    exact absurd read (fits.1 below name member)
  · rename_i full
    have taken := mt fits.2 full
    push Not at taken
    exact ⟨fun _ => taken, fun _ => rfl⟩

/-- There is a next generation if those of all names are below one. -/
theorem exists_nextGeneration {names : List String} {bound : UInt64}
    (below : ∀ name ∈ names, ∀ generation, generationOf? name = some generation →
      generation < bound) : ∃ next, nextGeneration names = .ok next := by
  refine exists_nextGeneration_iff.2 fun name member read => ?_
  have less := UInt64.lt_iff_toNat_lt.1 (below name member _ read)
  have room := bound.toNat_lt_size
  exact eq_lastGeneration_iff.1 rfl (by omega)

end Descriptor

end SortedTable

import SortedTable.Disk.Place

namespace SortedTable

namespace Path

/-- A path that is not only dots upwards. -/
def IsProper (path : Path) : Prop := path.all (· = up) = false

theorem isProper_concat (folder : Path) {name : String} (proper : isDots name = false) :
    IsProper (folder ++ [name]) := by
  have other : name ≠ up := by
    rintro rfl
    exact absurd proper (by decide)
  simp [IsProper, other]

theorem follow_of_proper (path : Path) {name : String} (proper : isDots name = false) :
    path.follow name = path ++ [name] := by
  rw [isDots, Bool.or_eq_false_iff, decide_eq_false_iff_not, decide_eq_false_iff_not] at proper
  rw [follow, if_neg proper.1, if_neg proper.2]

end Path

namespace Disk

theorem node?_of_isProper {disk : Disk} {path : Path} (proper : path.IsProper) :
    disk.node? path = disk.entries.lookup path := by
  rw [node?, if_neg (by rw [proper]; exact Bool.false_ne_true)]

theorem node?_of_not_isProper (disk : Disk) {path : Path} (dots : ¬path.IsProper) :
    disk.node? path = some .folder := by
  rw [Path.IsProper, Bool.not_eq_false] at dots
  rw [node?, if_pos dots]

/-- Disks whose entries agree at a path have the same node there. -/
theorem node?_congr {disk later : Disk} {path : Path}
    (same : path.IsProper → later.entries.lookup path = disk.entries.lookup path) :
    later.node? path = disk.node? path := by
  by_cases proper : path.IsProper
  · rw [node?_of_isProper proper, node?_of_isProper proper, same proper]
  · rw [node?_of_not_isProper _ proper, node?_of_not_isProper _ proper]

/-- The file at a path has bytes. -/
theorem lt_size_of_node? {disk : Disk} {path : Path} {id : Nat}
    (held : disk.node? path = some (.file id)) : id < disk.contents.size := by
  by_cases proper : path.IsProper
  · rw [node?_of_isProper proper] at held
    obtain ⟨before, after, same, -⟩ := List.lookup_eq_some_iff.1 held
    exact disk.bounded path id (by simp [same])
  · rw [node?_of_not_isProper _ proper] at held
    cases held

section Lookup

variable {entries : List (Path × Node)} {path : Path}

theorem lookup_filter_of_true {keep : Path × Node → Bool} (kept : ∀ node, keep (path, node) = true) :
    (entries.filter keep).lookup path = entries.lookup path := by
  induction entries with
  | nil => rfl
  | cons entry rest ih =>
      obtain ⟨other, node⟩ := entry
      rw [List.lookup_cons]
      by_cases same : path = other
      · subst same
        rw [List.filter_cons_of_pos (kept node), List.lookup_cons]
        simp
      · have differs : (path == other) = false := by simpa using same
        rw [differs, ← ih, List.filter_cons]
        split
        · rw [List.lookup_cons, differs]
        · rfl

theorem lookup_eq_none_of_forall (absent : ∀ node, (path, node) ∉ entries) :
    entries.lookup path = none := by
  rw [List.lookup_eq_none_iff]
  intro entry member
  simp only [bne_iff_ne, ne_eq]
  rintro rfl
  exact absent entry.2 member

/-- Nothing that got another path is found outside its new place. -/
theorem lookup_filterMap_of_outside {source target : Path} (outside : ¬target <+: path) :
    (entries.filterMap fun (old, node) =>
      if source.isPrefixOf old then some (target ++ old.drop source.length, node)
      else none).lookup path = none := by
  apply lookup_eq_none_of_forall
  intro node member
  obtain ⟨⟨old, found⟩, -, same⟩ := List.mem_filterMap.1 member
  dsimp only at same
  split at same
  · cases same
    exact outside (List.prefix_append _ _)
  · cases same

/-- Nothing that keeps its path is found at the target. -/
theorem lookup_filter_target (source target : Path) : (entries.filter fun (old, _) =>
    !source.isPrefixOf old && old != target).lookup target = none := by
  apply lookup_eq_none_of_forall
  intro node member
  obtain ⟨-, kept⟩ := List.mem_filter.1 member
  simp at kept

/-- What got another path is not found outside its new place. -/
theorem lookup_moved_of_outside {source target : Path} (away : ¬source <+: path)
    (outside : ¬target <+: path) : (moved entries source target).lookup path = entries.lookup path := by
  rw [moved, List.lookup_append, lookup_filterMap_of_outside outside, Option.none_or]
  apply lookup_filter_of_true
  intro node
  have other : path ≠ target := by
    rintro rfl
    exact outside List.prefix_rfl
  simp [← List.isPrefixOf_iff_prefix] at away
  simp [away, other]

theorem lookup_moved_source {source target : Path} (outside : ¬target <+: source) :
    (moved entries source target).lookup source = none := by
  rw [moved, List.lookup_append, lookup_filterMap_of_outside outside, Option.none_or]
  apply lookup_eq_none_of_forall
  intro node member
  obtain ⟨-, kept⟩ := List.mem_filter.1 member
  have self : source.isPrefixOf source = true := List.isPrefixOf_iff_prefix.2 List.prefix_rfl
  simp [self] at kept

/-- What lies below the target afterwards got its path from below the source. -/
theorem lookup_filterMap_target (source target rest : Path) :
    (entries.filterMap fun (old, node) =>
      if source.isPrefixOf old then some (target ++ old.drop source.length, node)
      else none).lookup (target ++ rest) = entries.lookup (source ++ rest) := by
  induction entries with
  | nil => rfl
  | cons entry further ih =>
      obtain ⟨old, node⟩ := entry
      rw [List.filterMap_cons, List.lookup_cons, ← ih]
      dsimp only
      by_cases below : source <+: old
      · obtain ⟨rest', rfl⟩ := below
        rw [if_pos (by simp), List.drop_left]
        dsimp only
        rw [List.lookup_cons]
        have same : (target ++ rest == target ++ rest') = (source ++ rest == source ++ rest') := by
          rw [Bool.eq_iff_iff]
          simp
        rw [same]
      · have differs : (source ++ rest == old) = false := by
          rw [beq_eq_false_iff_ne]
          rintro rfl
          exact below (List.prefix_append _ _)
        rw [if_neg (by simpa using below), differs]

theorem lookup_moved_target (source target : Path) :
    (moved entries source target).lookup target = entries.lookup source := by
  have renamed := @lookup_filterMap_target entries source target []
  rw [List.append_nil, List.append_nil] at renamed
  rw [moved, List.lookup_append, lookup_filter_target, Option.or_none, renamed]

/-- What is found afterwards kept its path or got it from below the source. -/
theorem exists_of_lookup_moved {source target : Path} {node : Node}
    (found : (moved entries source target).lookup path = some node) :
    ¬source <+: path ∧ entries.lookup path = some node ∨
      ∃ rest, path = target ++ rest ∧ entries.lookup (source ++ rest) = some node := by
  rw [moved, List.lookup_append, Option.or_eq_some_iff] at found
  rcases found with found | ⟨-, found⟩
  · right
    by_cases below : target <+: path
    · obtain ⟨rest, rfl⟩ := below
      exact ⟨rest, rfl, (lookup_filterMap_target source target rest).symm.trans found⟩
    · rw [lookup_filterMap_of_outside below] at found
      cases found
  · left
    obtain ⟨before, after, same, -⟩ := List.lookup_eq_some_iff.1 found
    have member : (path, node) ∈ entries.filter fun (old, _) =>
        !source.isPrefixOf old && old != target := by simp [same]
    have kept := (List.mem_filter.1 member).2
    rw [lookup_filter_of_true fun _ => kept] at found
    simp [← List.isPrefixOf_iff_prefix] at kept ⊢
    exact ⟨kept.1, found⟩

end Lookup

section Changes

variable {disk : Disk} {path other source target : Path} {id file : Nat}

theorem node?_create_self (proper : path.IsProper) :
    (disk.apply (.create path id)).node? path = some (.file id) := by
  rw [node?_of_isProper proper]
  simp [apply]

theorem node?_create_of_ne (differs : other ≠ path) :
    (disk.apply (.create path id)).node? other = disk.node? other := by
  apply node?_congr
  intro _
  have away : (other == path) = false := by simpa using differs
  simp [apply, List.lookup_cons, away]

theorem node?_createFolder_self : (disk.apply (.createFolder path)).node? path = some .folder := by
  by_cases proper : path.IsProper
  · rw [node?_of_isProper proper]
    simp [apply]
  · exact node?_of_not_isProper _ proper

theorem node?_createFolder_of_ne (differs : other ≠ path) :
    (disk.apply (.createFolder path)).node? other = disk.node? other := by
  apply node?_congr
  intro _
  have away : (other == path) = false := by simpa using differs
  simp [apply, List.lookup_cons, away]

theorem node?_rename_of_outside (away : ¬source <+: path) (outside : ¬target <+: path) :
    (disk.apply (.rename source target)).node? path = disk.node? path :=
  node?_congr fun _ => lookup_moved_of_outside away outside

theorem node?_rename_source (proper : source.IsProper) (outside : ¬target <+: source) :
    (disk.apply (.rename source target)).node? source = none := by
  rw [node?_of_isProper proper]
  exact lookup_moved_source outside

theorem node?_rename_target (proper : source.IsProper) (proper' : target.IsProper) :
    (disk.apply (.rename source target)).node? target = disk.node? source := by
  rw [node?_of_isProper proper, node?_of_isProper proper']
  exact lookup_moved_target source target

/-- A file that has a path afterwards had it before or had one below the source. -/
theorem exists_of_node?_rename (proper : source.IsProper)
    (held : (disk.apply (.rename source target)).node? path = some (.file id)) :
    ¬source <+: path ∧ disk.node? path = some (.file id) ∨
      ∃ rest, path = target ++ rest ∧ disk.node? (source ++ rest) = some (.file id) := by
  by_cases real : path.IsProper
  · rw [node?_of_isProper real] at held
    rcases exists_of_lookup_moved held with ⟨away, found⟩ | ⟨rest, same, found⟩
    · exact .inl ⟨away, (node?_of_isProper real).trans found⟩
    · have below : Path.IsProper (source ++ rest) := by
        rw [Path.IsProper, List.all_append, proper, Bool.false_and]
      exact .inr ⟨rest, same, (node?_of_isProper below).trans found⟩
  · rw [node?_of_not_isProper _ real] at held
    cases held

theorem node?_remove_self (proper : path.IsProper) :
    (disk.apply (.remove path)).node? path = none := by
  rw [node?_of_isProper proper]
  apply lookup_eq_none_of_forall
  intro node member
  obtain ⟨-, kept⟩ := List.mem_filter.1 member
  simp at kept

theorem node?_remove_of_ne (differs : other ≠ path) :
    (disk.apply (.remove path)).node? other = disk.node? other := by
  apply node?_congr
  intro _
  apply lookup_filter_of_true
  intro node
  simpa using differs

/-- What is not there is not there after a removal either. -/
theorem node?_remove_eq_none (nothing : disk.node? other = none) :
    (disk.apply (.remove path)).node? other = none := by
  by_cases same : other = path
  · subst same
    by_cases proper : other.IsProper
    · exact node?_remove_self proper
    · rw [node?_of_not_isProper disk proper] at nothing
      cases nothing
  · rw [node?_remove_of_ne same, nothing]

theorem content_create : (disk.apply (.create path id)).content file = disk.content file := by
  unfold content apply
  dsimp only
  rw [Array.getD_eq_getD_getElem?, Array.getD_eq_getD_getElem?, Array.getElem?_append]
  split
  · rfl
  · rename_i beyond
    have none : disk.contents[file]? = none := Array.getElem?_eq_none (by omega)
    rw [none, Array.getElem?_replicate]
    split <;> rfl

theorem content_write_of_ne (differs : file ≠ id) (offset : Nat) (bytes : Bytes) :
    (disk.apply (.write id offset bytes)).content file = disk.content file := by
  unfold content apply
  dsimp only
  rw [Array.getD_eq_getD_getElem?, Array.getElem?_modify, if_neg (Ne.symm differs),
    Array.getD_eq_getD_getElem?]

theorem content_write_self (inside : id < disk.contents.size) (offset : Nat) (bytes : Bytes) :
    (disk.apply (.write id offset bytes)).content id = overwrite (disk.content id) offset bytes := by
  unfold content apply
  dsimp only
  rw [Array.getD_eq_getD_getElem?, Array.getElem?_modify, if_pos rfl, Array.getD_eq_getD_getElem?,
    Array.getElem?_eq_getElem inside]
  rfl

theorem content_truncate_of_ne (differs : file ≠ id) (length : Nat) :
    (disk.apply (.truncate id length)).content file = disk.content file := by
  unfold content apply
  dsimp only
  rw [Array.getD_eq_getD_getElem?, Array.getElem?_modify, if_neg (Ne.symm differs),
    Array.getD_eq_getD_getElem?]

theorem content_truncate_zero (inside : id < disk.contents.size) :
    (disk.apply (.truncate id 0)).content id = [] := by
  unfold content apply
  dsimp only
  rw [Array.getD_eq_getD_getElem?, Array.getElem?_modify, if_pos rfl,
    Array.getElem?_eq_getElem inside]
  simp [resized]

/-- Behind the last byte of a file nothing is overwritten. -/
theorem overwrite_length (content bytes : Bytes) :
    overwrite content content.length bytes = content ++ bytes := by
  simp [overwrite]

theorem size_apply_le (disk : Disk) (change : Change) :
    disk.contents.size ≤ (disk.apply change).contents.size := by
  cases change <;> simp [apply]

end Changes

/-- The folder and all folders above it are there. -/
def IsOpen (disk : Disk) (path : Path) : Prop :=
  ∀ front, front <+: path → disk.node? front = some .folder

theorem isOpen_nil (disk : Disk) : disk.IsOpen [] := by
  intro front below
  rw [List.prefix_nil.1 below]
  rfl

theorem IsOpen.follow {disk : Disk} {path : Path} {step : String} (isOpen : disk.IsOpen path)
    (found : Path.isDots step = false → disk.node? (path ++ [step]) = some .folder) :
    disk.IsOpen (path.follow step) := by
  unfold Path.follow
  split
  · exact isOpen
  · rename_i going
    split
    · unfold Path.above
      split
      · rename_i dots
        intro front below
        apply node?_of_not_isProper
        rw [Path.IsProper, Bool.not_eq_false, List.all_eq_true]
        intro name member
        rcases List.mem_cons.1 (below.subset member) with rfl | member
        · simp
        · exact List.all_eq_true.1 dots name member
      · exact fun front below => isOpen front (below.trans (List.dropLast_prefix path))
    · rename_i proper
      intro front below
      rcases List.prefix_concat_iff.1 below with rfl | below
      · exact found (by simp [Path.isDots, going, proper])
      · exact isOpen front below

theorem enter_cons_eq_ok_iff {disk : Disk} {folder result : Path} {step : String}
    {rest : List String} :
    disk.enter folder (step :: rest) = .ok result ↔
      (Path.isDots step = false → disk.lookup folder step = .ok (some .folder)) ∧
        disk.enter (folder.follow step) rest = .ok result := by
  rw [enter]
  split
  · rename_i dots
    simp [dots]
  · rename_i proper
    rw [Bool.not_eq_true] at proper
    cases outcome : disk.lookup folder step with
    | error cause => simp [bind, Except.bind, proper]
    | ok found =>
        rcases found with - | - | id <;> simp [bind, Except.bind, proper, refuse]

theorem lookup_eq_ok_iff {disk : Disk} {folder : Path} {name : String} {found : Option Node} :
    disk.lookup folder name = .ok found ↔
      name.utf8ByteSize ≤ Path.maxNameBytes ∧ disk.node? (folder ++ [name]) = found := by
  unfold lookup
  split
  · rename_i long
    simp [refuse, Nat.not_le.2 long]
  · rename_i short
    simp [Nat.not_lt.1 short]

/-- Where a text leads depends on the nodes of a disk alone. -/
theorem locate_congr {disk later : Disk} (nodes : ∀ path, later.node? path = disk.node? path)
    (text : String) : later.locate text = disk.locate text := by
  have looked (folder : Path) (name : String) : later.lookup folder name = disk.lookup folder name := by
    rw [lookup, lookup, nodes]
  have entered (steps : List String) (start : Path) :
      later.enter start steps = disk.enter start steps := by
    induction steps generalizing start with
    | nil => rfl
    | cons step rest ih => simp only [enter, looked, ih]
  have placed : later.place text = disk.place text := by
    simp only [place, entered]
  simp only [locate, placed, looked]

/-- A text leads to an open folder, and to the same one if the open folders stay open. -/
theorem enter_of_isOpen {disk later : Disk}
    (kept : ∀ path, disk.IsOpen path → later.IsOpen path) {start : Path} (isOpen : disk.IsOpen start)
    {steps : List String} {folder : Path} (entered : disk.enter start steps = .ok folder) :
    disk.IsOpen folder ∧ later.enter start steps = .ok folder := by
  induction steps generalizing start with
  | nil =>
      cases entered
      exact ⟨isOpen, rfl⟩
  | cons step rest ih =>
      obtain ⟨found, further⟩ := enter_cons_eq_ok_iff.1 entered
      have next : disk.IsOpen (start.follow step) :=
        isOpen.follow fun proper => (lookup_eq_ok_iff.1 (found proper)).2
      obtain ⟨reached, same⟩ := ih next further
      refine ⟨reached, enter_cons_eq_ok_iff.2 ⟨fun proper => ?_, same⟩⟩
      obtain ⟨short, -⟩ := lookup_eq_ok_iff.1 (found proper)
      have down := start.follow_of_proper proper
      have there := kept _ next (start ++ [step]) (down ▸ List.prefix_rfl)
      exact lookup_eq_ok_iff.2 ⟨short, there⟩

/-- The bytes of the file at a path. -/
def file? (disk : Disk) (path : Path) : Option Bytes :=
  match disk.node? path with
  | some (.file id) => some (disk.content id)
  | _ => none

theorem file?_of_node? {disk : Disk} {path : Path} {id : Nat}
    (held : disk.node? path = some (.file id)) : disk.file? path = some (disk.content id) := by
  rw [file?, held]

end Disk

end SortedTable

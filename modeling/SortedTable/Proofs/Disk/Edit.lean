import SortedTable.Disk.Edit
import SortedTable.Proofs.Disk.Basic
import SortedTable.Proofs.Outcome
import SortedTable.Proofs.Path

namespace SortedTable

/-- A text that the operating system takes for a path. -/
structure Path.IsText (text : String) : Prop where
  whole : text.toList.contains '\x00' = false
  short : text.utf8ByteSize ≤ maxTextBytes

instance (text : String) : Decidable (Path.IsText text) :=
  decidable_of_iff (text.toList.contains '\x00' = false ∧ text.utf8ByteSize ≤ Path.maxTextBytes)
    ⟨fun both => ⟨both.1, both.2⟩, fun text => ⟨text.whole, text.short⟩⟩

namespace Disk

/-- The text of a name in a folder leads to this name exactly if the folder can be entered. -/
theorem place_joinText_iff {disk : Disk} {directory name : String} (plain : Path.IsName name)
    {spot : Place} :
    disk.place (Path.joinText directory name) = .ok spot ↔
      Path.IsText (Path.joinText directory name) ∧
        ∃ folder, disk.enter [] (Path.steps directory) = .ok folder ∧
          spot = .entry folder name false := by
  obtain ⟨front, shape, -⟩ := Path.toList_joinText directory name
  have inhabited : (Path.joinText directory name).isEmpty = false := by
    rw [Bool.eq_false_iff]
    intro nothing
    rw [String.isEmpty_iff.1 nothing] at shape
    exact plain.inhabited (List.append_eq_nil_iff.1 shape.symm).2
  have ending : decide ((Path.joinText directory name).toList.getLast? = some '/') = false := by
    rw [decide_eq_false_iff_not, shape]
    intro last
    rw [List.getLast?_append_of_ne_nil _ plain.inhabited] at last
    exact plain.whole '/' (List.mem_of_getLast? last) rfl
  unfold place
  rw [inhabited, Path.steps_joinText directory plain, List.reverse_concat]
  split
  · rename_i zero
    exact ⟨nofun, fun same => absurd (zero.symm.trans same.1.whole) (by decide)⟩
  · rename_i whole
    split
    · rename_i impossible
      cases impossible
    · split
      · rename_i long
        exact ⟨nofun, fun same => absurd same.1.short (Nat.not_le.2 long)⟩
      · rename_i short
        dsimp only
        rw [Except.bind_eq_ok_iff, List.reverse_reverse, plain.proper, ending]
        have text : Path.IsText (Path.joinText directory name) :=
          ⟨Bool.eq_false_iff.2 whole, Nat.not_lt.1 short⟩
        constructor
        · rintro ⟨folder, entered, same⟩
          exact ⟨text, folder, entered, (Except.ok.inj same).symm⟩
        · rintro ⟨-, folder, entered, rfl⟩
          exact ⟨folder, entered, rfl⟩

theorem applyAll_singleton (disk : Disk) (change : Change) :
    disk.applyAll [change] = disk.apply change := rfl

/-- Where nothing has a name, a file of that name is made. -/
theorem create_of_nothing {disk : Disk} {text : String} {folder : Path} {name : String}
    (short : name.utf8ByteSize ≤ Path.maxNameBytes)
    (led : disk.place text = .ok (.entry folder name false))
    (nothing : disk.node? (folder ++ [name]) = none) :
    disk.create text =
      .ok (disk.contents.size, [.create (folder ++ [name]) disk.contents.size]) := by
  rw [create, led, Except.ok_bind]
  dsimp only
  rw [lookup_eq_ok_iff.2 ⟨short, nothing⟩, Except.ok_bind]
  rfl

/-- A file was made or emptied at a path; the rest of the disk is as before. -/
structure Creates (disk later : Disk) (path : Path) (id : Nat) : Prop where
  origin : disk.node? path = some (.file id) ∨ disk.node? path = none ∧ id = disk.contents.size
  held : later.node? path = some (.file id)
  others : ∀ other, other ≠ path → later.node? other = disk.node? other
  blank : later.content id = []
  kept : ∀ file, file ≠ id → later.content file = disk.content file
  grown : disk.contents.size ≤ later.contents.size

/-- The folders that were open still are. -/
theorem Creates.isOpen {disk later : Disk} {path other : Path} {id : Nat}
    (made : Creates disk later path id) (isOpen : disk.IsOpen other) : later.IsOpen other := by
  intro front below
  have folder := isOpen front below
  rw [made.others front, folder]
  rintro rfl
  rcases made.origin with held | ⟨nothing, -⟩
  · rw [held] at folder
    cases folder
  · rw [nothing] at folder
    cases folder

theorem creates_of_create {disk : Disk} {text : String} {folder : Path} {name : String} {id : Nat}
    {changes : List Change} (proper : Path.isDots name = false)
    (led : disk.place text = .ok (.entry folder name false))
    (created : disk.create text = .ok (id, changes)) :
    Creates disk (disk.applyAll changes) (folder ++ [name]) id := by
  obtain ⟨place, same, created⟩ := Except.bind_eq_ok_iff.1 created
  cases led.symm.trans same
  obtain ⟨found, looked, created⟩ := Except.bind_eq_ok_iff.1 created
  obtain ⟨-, node⟩ := lookup_eq_ok_iff.1 looked
  rcases found with - | - | file
  · cases created
    exact
      { origin := .inr ⟨node, rfl⟩
        held := node?_create_self (Path.isProper_concat folder proper)
        others := fun other differs => node?_create_of_ne differs
        blank := by
          rw [applyAll_singleton, content_create, content, Array.getD_eq_getD_getElem?,
            Array.getElem?_eq_none (Nat.le_refl _)]
          rfl
        kept := fun file _ => content_create
        grown := size_apply_le disk (.create _ _) }
  · cases created
  · cases created
    exact
      { origin := .inl node
        held := node
        others := fun _ _ => rfl
        blank := content_truncate_zero (lt_size_of_node? node)
        kept := fun other differs => content_truncate_of_ne differs 0
        grown := size_apply_le disk (.truncate id 0) }

theorem place_of_create {disk : Disk} {text : String} {made : FileId × List Change}
    (created : disk.create text = .ok made) : ∃ spot, disk.place text = .ok spot := by
  obtain ⟨spot, led, -⟩ := Except.bind_eq_ok_iff.1 created
  exact ⟨spot, led⟩

theorem place_of_rename {disk : Disk} {source target : String} {changes : List Change}
    (renamed : disk.rename source target = .ok changes) :
    ∃ spot, disk.place source = .ok spot := by
  obtain ⟨spot, led, -⟩ := Except.bind_eq_ok_iff.1 renamed
  exact ⟨spot, led⟩

/-- A file got another path; the rest of the disk is as before. -/
structure Moves (disk later : Disk) (source target : Path) (id : Nat) : Prop where
  taken : disk.node? source = some (.file id)
  room : disk.node? target ≠ some .folder
  held : later.node? target = some (.file id)
  gone : later.node? source = none
  others : ∀ path, ¬source <+: path → ¬target <+: path → later.node? path = disk.node? path
  origin : ∀ path file, later.node? path = some (.file file) →
    ¬source <+: path ∧ disk.node? path = some (.file file) ∨
      ∃ rest, path = target ++ rest ∧ disk.node? (source ++ rest) = some (.file file)
  contents : later.contents = disk.contents

/-- The folders that were open still are. -/
theorem Moves.isOpen {disk later : Disk} {source target other : Path} {id : Nat}
    (moved : Moves disk later source target id) (isOpen : disk.IsOpen other) :
    later.IsOpen other := by
  intro front below
  have folder := isOpen front below
  rw [moved.others front, folder]
  · intro under
    have taken := isOpen source (under.trans below)
    rw [moved.taken] at taken
    cases taken
  · intro under
    exact moved.room (isOpen target (under.trans below))

theorem not_concat_isPrefix_concat {folder : Path} {name other : String} (differs : name ≠ other) :
    ¬folder ++ [name] <+: folder ++ [other] := by
  rw [List.prefix_append_right_inj]
  intro below
  exact differs (by simpa using below)

theorem moves_of_rename {disk : Disk} {source target : String} {folder : Path} {name other : String}
    {changes : List Change} (proper : Path.isDots name = false) (proper' : Path.isDots other = false)
    (differs : name ≠ other) (led : disk.place source = .ok (.entry folder name false))
    (led' : disk.place target = .ok (.entry folder other false))
    (plain : disk.node? (folder ++ [name]) ≠ some .folder)
    (renamed : disk.rename source target = .ok changes) :
    ∃ id, Moves disk (disk.applyAll changes) (folder ++ [name]) (folder ++ [other]) id := by
  obtain ⟨place, same, renamed⟩ := Except.bind_eq_ok_iff.1 renamed
  cases led.symm.trans same
  obtain ⟨place, same, renamed⟩ := Except.bind_eq_ok_iff.1 renamed
  cases led'.symm.trans same
  obtain ⟨node, looked, renamed⟩ := Except.bind_eq_ok_iff.1 renamed
  obtain ⟨-, held⟩ := lookup_eq_ok_iff.1 looked
  rcases node with - | - | id
  · cases renamed
  · exact absurd held plain
  · obtain ⟨found, looked', renamed⟩ := Except.bind_eq_ok_iff.1 renamed
    obtain ⟨-, held'⟩ := lookup_eq_ok_iff.1 looked'
    have apart : folder ++ [name] ≠ folder ++ [other] := by simpa using differs
    have beside := @not_concat_isPrefix_concat folder _ _ differs
    have beside' := @not_concat_isPrefix_concat folder _ _ differs.symm
    dsimp only at renamed
    rw [if_neg (by simp), if_neg apart, if_neg (by simpa using beside),
      if_neg (by simpa using beside')] at renamed
    have change : changes = [.rename (folder ++ [name]) (folder ++ [other])] ∧
        found ≠ some .folder := by
      rcases found with - | - | file <;> cases renamed <;> exact ⟨rfl, nofun⟩
    obtain ⟨rfl, room⟩ := change
    have source := Path.isProper_concat folder proper
    have target := Path.isProper_concat folder proper'
    exact ⟨id,
      { taken := held
        room := held' ▸ room
        held := (node?_rename_target source target).trans held
        gone := node?_rename_source source beside'
        others := fun path away outside => node?_rename_of_outside away outside
        origin := fun path file => exists_of_node?_rename source
        contents := rfl }⟩

/-- A file gets a name that nothing has. -/
theorem rename_of_nothing {disk : Disk} {source target : String} {folder : Path}
    {name other : String} {id : Nat} (short : name.utf8ByteSize ≤ Path.maxNameBytes)
    (short' : other.utf8ByteSize ≤ Path.maxNameBytes) (differs : name ≠ other)
    (led : disk.place source = .ok (.entry folder name false))
    (led' : disk.place target = .ok (.entry folder other false))
    (held : disk.node? (folder ++ [name]) = some (.file id))
    (nothing : disk.node? (folder ++ [other]) = none) :
    disk.rename source target = .ok [.rename (folder ++ [name]) (folder ++ [other])] := by
  have apart : folder ++ [name] ≠ folder ++ [other] := by simpa using differs
  have beside := @not_concat_isPrefix_concat folder _ _ differs
  have beside' := @not_concat_isPrefix_concat folder _ _ differs.symm
  rw [rename, led, Except.ok_bind, led', Except.ok_bind]
  dsimp only
  rw [lookup_eq_ok_iff.2 ⟨short, held⟩, Except.ok_bind]
  dsimp only
  rw [lookup_eq_ok_iff.2 ⟨short', nothing⟩, Except.ok_bind, if_neg (by simp), if_neg apart,
    if_neg (by simpa using beside), if_neg (by simpa using beside')]
  rfl

/-- The place of a name is empty; the rest of the disk is as before. -/
structure Clears (disk later : Disk) (path : Path) : Prop where
  gone : later.node? path = none
  others : ∀ other, other ≠ path → later.node? other = disk.node? other
  contents : later.contents = disk.contents

section Remove

variable {disk : Disk} {text : String} {folder : Path} {name : String}

theorem remove_of_file (short : name.utf8ByteSize ≤ Path.maxNameBytes)
    (led : disk.place text = .ok (.entry folder name false)) {id : Nat}
    (held : disk.node? (folder ++ [name]) = some (.file id)) :
    disk.remove text = .ok [.remove (folder ++ [name])] := by
  rw [remove, led, Except.ok_bind]
  dsimp only
  rw [lookup_eq_ok_iff.2 ⟨short, held⟩, Except.ok_bind]
  rfl

theorem remove_of_nothing (short : name.utf8ByteSize ≤ Path.maxNameBytes)
    (led : disk.place text = .ok (.entry folder name false))
    (nothing : disk.node? (folder ++ [name]) = none) : disk.remove text = refuse .notFound := by
  rw [remove, led, Except.ok_bind]
  dsimp only
  rw [lookup_eq_ok_iff.2 ⟨short, nothing⟩, Except.ok_bind]

end Remove

/-- Afterwards nothing is at a name, unless a folder is in the way. -/
theorem clears_of_remove {disk : Disk} {text : String} {folder : Path} {name : String}
    (proper : Path.isDots name = false) (short : name.utf8ByteSize ≤ Path.maxNameBytes)
    (led : disk.place text = .ok (.entry folder name false))
    (plain : disk.node? (folder ++ [name]) ≠ some .folder) :
    Clears disk (match disk.remove text with
      | .ok changes => disk.applyAll changes
      | .error _ => disk) (folder ++ [name]) := by
  rcases node : disk.node? (folder ++ [name]) with - | - | id
  · rw [remove_of_nothing short led node]
    exact ⟨node, fun _ _ => rfl, rfl⟩
  · exact absurd node plain
  · rw [remove_of_file short led node]
    exact
      { gone := node?_remove_self (Path.isProper_concat folder proper)
        others := fun other differs => node?_remove_of_ne differs
        contents := rfl }

end Disk

end SortedTable

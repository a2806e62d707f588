import SortedTable.Proofs.Disk.Edit

namespace SortedTable.Disk

/-- Folders were added where nothing was; the rest of the disk is as before. -/
structure AddsFolders (disk later : Disk) : Prop where
  nodes : ∀ path, later.node? path = disk.node? path ∨
    disk.node? path = none ∧ later.node? path = some .folder
  contents : later.contents = disk.contents

namespace AddsFolders

variable {disk middle later : Disk}

theorem refl (disk : Disk) : AddsFolders disk disk := ⟨fun _ => .inl rfl, rfl⟩

theorem trans (first : AddsFolders disk middle) (second : AddsFolders middle later) :
    AddsFolders disk later where
  nodes path := by
    rcases first.nodes path with same | ⟨nothing, folder⟩
    · rw [← same]
      exact second.nodes path
    · rcases second.nodes path with same | ⟨nothing', folder'⟩
      · exact .inr ⟨nothing, same.trans folder⟩
      · exact .inr ⟨nothing, folder'⟩
  contents := second.contents.trans first.contents

theorem folder (adds : AddsFolders disk later) {path : Path}
    (held : disk.node? path = some .folder) : later.node? path = some .folder := by
  rcases adds.nodes path with same | ⟨nothing, folder⟩
  · exact same.trans held
  · exact folder

theorem isOpen (adds : AddsFolders disk later) {path : Path} (isOpen : disk.IsOpen path) :
    later.IsOpen path := fun front below => adds.folder (isOpen front below)

/-- The files are where they were. -/
theorem node?_eq_file_iff (adds : AddsFolders disk later) {path : Path} {id : Nat} :
    later.node? path = some (.file id) ↔ disk.node? path = some (.file id) := by
  rcases adds.nodes path with same | ⟨nothing, folder⟩
  · rw [same]
  · rw [nothing, folder]
    simp

theorem node?_eq_none (adds : AddsFolders disk later) {path : Path}
    (nothing : later.node? path = none) : disk.node? path = none := by
  rcases adds.nodes path with same | ⟨before, -⟩
  · exact same.symm.trans nothing
  · exact before

theorem file? (adds : AddsFolders disk later) (path : Path) :
    later.file? path = disk.file? path := by
  unfold Disk.file? content
  rcases adds.nodes path with same | ⟨nothing, folder⟩
  · rw [same, adds.contents]
  · rw [nothing, folder]

end AddsFolders

theorem addsFolders_of_ensureFolder {disk : Disk} {text : String} {changes : List Change}
    (ensured : disk.ensureFolder text = .ok changes) : AddsFolders disk (disk.applyAll changes) := by
  unfold ensureFolder at ensured
  split at ensured
  · split at ensured <;> cases ensured
    exact .refl disk
  · obtain ⟨spot, -, ensured⟩ := Except.bind_eq_ok_iff.1 ensured
    rcases spot with path | ⟨folder, name, closed⟩
    · cases ensured
    · obtain ⟨found, looked, ensured⟩ := Except.bind_eq_ok_iff.1 ensured
      obtain ⟨-, node⟩ := lookup_eq_ok_iff.1 looked
      rcases found with - | there
      · cases ensured
        refine ⟨fun path => ?_, rfl⟩
        by_cases same : path = folder ++ [name]
        · subst same
          exact .inr ⟨node, node?_createFolder_self⟩
        · exact .inl (node?_createFolder_of_ne same)
      · cases ensured

theorem addsFolders_ensureFirst (disk : Disk) (texts : List String) :
    AddsFolders disk (disk.applyAll (disk.ensureFirst texts).1) := by
  induction texts with
  | nil => exact .refl disk
  | cons text above ih =>
      unfold ensureFirst
      split
      · rename_i ensured
        exact addsFolders_of_ensureFolder ensured
      · split
        · rename_i changes _ outer
          rwa [outer] at ih
        · rename_i changes outer
          rw [outer] at ih
          split
          · rename_i further ensured
            have both := ih.trans (addsFolders_of_ensureFolder ensured)
            have joined : disk.applyAll (changes ++ further) =
                (disk.applyAll changes).applyAll further := List.foldl_append
            rwa [← joined] at both
          · exact ih
      · exact .refl disk

/-- Making a folder only adds folders where nothing was. -/
theorem addsFolders_createFolders (disk : Disk) (text : String) :
    AddsFolders disk (disk.applyAll (disk.createFolders text).1) :=
  addsFolders_ensureFirst disk (Path.folders text)

/-- Steps that follow others start where those led to. -/
theorem enter_append (disk : Disk) (start : Path) (first second : List String) :
    disk.enter start (first ++ second) =
      disk.enter start first >>= fun folder => disk.enter folder second := by
  induction first generalizing start with
  | nil => rfl
  | cons step rest ih =>
      rw [List.cons_append, enter, enter]
      split
      · exact ih _
      · cases disk.lookup start step with
        | error cause => rfl
        | ok found =>
            rcases found with - | - | id
            · rfl
            · exact ih _
            · rfl

/-- What a text that leads somewhere has in front of its end. -/
theorem steps_of_place {disk : Disk} {text : String} {spot : Place}
    (led : disk.place text = .ok spot) :
    Path.steps text = [] ∧ spot = .folder [] ∨
      ∃ before last folder, Path.steps text = before ++ [last] ∧
        disk.enter [] before = .ok folder ∧
        (Path.isDots last = true ∧ spot = .folder (folder.follow last) ∨
          Path.isDots last = false ∧ ∃ closed, spot = .entry folder last closed) := by
  unfold place at led
  split at led
  · cases led
  · split at led
    · cases led
    · split at led
      · cases led
      · split at led
        · rename_i nothing
          cases led
          exact .inl ⟨List.reverse_eq_nil_iff.1 nothing, rfl⟩
        · rename_i last before shape
          obtain ⟨folder, entered, led⟩ := Except.bind_eq_ok_iff.1 led
          have steps := congrArg List.reverse shape
          rw [List.reverse_reverse, List.reverse_cons] at steps
          refine .inr ⟨before.reverse, last, folder, steps, entered, ?_⟩
          by_cases dots : Path.isDots last = true
          · rw [if_pos dots] at led
            cases led
            exact .inl ⟨dots, rfl⟩
          · rw [if_neg dots] at led
            cases led
            exact .inr ⟨Bool.eq_false_iff.2 dots, _, rfl⟩

theorem find_of_locate {disk : Disk} {text : String} {path : Path} {node : Node}
    (located : disk.locate text = .ok (path, node)) : disk.find text = .ok node := by
  rw [find, located]
  rfl

/-- A text that names a folder is that of the steps into it. -/
theorem enter_of_locate {disk : Disk} {text : String} {folder : Path}
    (located : disk.locate text = .ok (folder, .folder)) :
    disk.enter [] (Path.steps text) = .ok folder := by
  obtain ⟨spot, led, located⟩ := Except.bind_eq_ok_iff.1 located
  rcases steps_of_place led with ⟨none', rfl⟩ | ⟨before, last, above, steps, entered, ending⟩
  · cases located
    rw [none']
    rfl
  · rw [steps, enter_append, entered, Except.ok_bind]
    rcases ending with ⟨dots, rfl⟩ | ⟨proper, closed, rfl⟩
    · cases located
      rw [enter, if_pos dots]
      rfl
    · obtain ⟨node, looked, located⟩ := Except.bind_eq_ok_iff.1 located
      rcases node with - | - | id
      · cases located
      · cases located
        refine enter_cons_eq_ok_iff.2 ⟨fun _ => looked, ?_⟩
        rw [Path.follow_of_proper _ proper]
        rfl
      · dsimp only at located
        split at located <;> cases located

/-- A text leads to the same place as long as the open folders stay open. -/
theorem place_of_isOpen {disk later : Disk} (kept : ∀ path, disk.IsOpen path → later.IsOpen path)
    {text : String} {spot : Place} (led : disk.place text = .ok spot) :
    later.place text = .ok spot := by
  unfold place at led ⊢
  split
  · rename_i zero
    rw [if_pos zero] at led
    cases led
  · rename_i whole
    rw [if_neg whole] at led
    split
    · rename_i blank
      rw [if_pos blank] at led
      cases led
    · rename_i inhabited
      rw [if_neg inhabited] at led
      split
      · rename_i long
        rw [if_pos long] at led
        cases led
      · rename_i short
        rw [if_neg short] at led
        split
        · rename_i nothing
          rw [nothing] at led
          exact led
        · rename_i last before shape
          rw [shape] at led
          obtain ⟨folder, entered, led⟩ := Except.bind_eq_ok_iff.1 led
          obtain ⟨-, entered'⟩ := enter_of_isOpen kept disk.isOpen_nil entered
          rw [entered', Except.ok_bind]
          exact led

/-- A text that names a folder still does so as long as the open folders stay open. -/
theorem locate_of_isOpen {disk later : Disk} (kept : ∀ path, disk.IsOpen path → later.IsOpen path)
    {text : String} {folder : Path} (located : disk.locate text = .ok (folder, .folder)) :
    later.locate text = .ok (folder, .folder) := by
  have reached := (enter_of_isOpen kept disk.isOpen_nil (enter_of_locate located)).1
  obtain ⟨spot, led, located⟩ := Except.bind_eq_ok_iff.1 located
  unfold locate
  rw [place_of_isOpen kept led, Except.ok_bind]
  rcases spot with path | ⟨above, name, closed⟩
  · exact located
  · obtain ⟨node, looked, located⟩ := Except.bind_eq_ok_iff.1 located
    rcases node with - | - | id
    · cases located
    · cases located
      have there := kept _ reached _ List.prefix_rfl
      obtain ⟨short, -⟩ := lookup_eq_ok_iff.1 looked
      dsimp only
      rw [lookup_eq_ok_iff.2 ⟨short, there⟩]
      rfl
    · dsimp only at located
      split at located <;> cases located

theorem nameIn?_eq_some_iff {folder path : Path} {name : String} :
    nameIn? folder path = some name ↔ path = folder ++ [name] := by
  unfold nameIn?
  constructor
  · intro named
    split at named
    · rename_i same
      rw [← same]
      exact (List.dropLast_append_getLast? name named).symm
    · cases named
  · rintro rfl
    simp

/-- A folder lists the names under which something is there. -/
theorem mem_names_iff {disk : Disk} {text : String} {names : List String}
    (listed : disk.names text = .ok names) :
    ∃ folder, disk.locate text = .ok (folder, .folder) ∧
      ∀ name, Path.isDots name = false →
        (name ∈ names ↔ disk.node? (folder ++ [name]) ≠ none) := by
  obtain ⟨⟨folder, node⟩, located, named⟩ := Except.bind_eq_ok_iff.1 listed
  rcases node with - | id
  · refine ⟨folder, located, fun name proper => ?_⟩
    rw [← Except.pure_eq_ok_iff.1 named, List.mem_filterMap,
      node?_of_isProper (Path.isProper_concat folder proper), Ne, List.lookup_eq_none_iff]
    simp only [nameIn?_eq_some_iff]
    constructor
    · rintro ⟨entry, member, same⟩ absent
      simpa [same] using absent entry member
    · intro present
      obtain ⟨entry, member, same⟩ := not_forall₂.1 present
      rw [bne_iff_ne, not_not] at same
      exact ⟨entry, member, same.symm⟩
  · cases named

theorem exists_names {disk : Disk} {text : String} {folder : Path}
    (located : disk.locate text = .ok (folder, .folder)) : ∃ names, disk.names text = .ok names := by
  unfold names
  rw [located]
  exact ⟨_, rfl⟩

/-- In a folder without names nothing has a name. -/
theorem vacant_of_names {disk : Disk} {text : String} (listed : disk.names text = .ok []) :
    ∃ folder, disk.locate text = .ok (folder, .folder) ∧
      ∀ name, Path.isDots name = false → disk.node? (folder ++ [name]) = none := by
  obtain ⟨folder, located, found⟩ := mem_names_iff listed
  exact ⟨folder, located, fun name proper =>
    not_not.1 (mt (found name proper).2 List.not_mem_nil)⟩

/-- A folder that is there is not made again. -/
theorem ensureFolder_of_find {disk : Disk} {text : String} (found : disk.find text = .ok .folder) :
    disk.ensureFolder text = .ok [] := by
  have exists' : disk.createFolder text = refuse .alreadyExists := by
    obtain ⟨⟨path, node⟩, located, same⟩ := Except.map_eq_ok_iff.1 found
    cases same
    obtain ⟨spot, led, located⟩ := Except.bind_eq_ok_iff.1 located
    unfold createFolder
    rw [led, Except.ok_bind]
    rcases spot with path | ⟨folder, name, closed⟩
    · rfl
    · obtain ⟨node, looked, located⟩ := Except.bind_eq_ok_iff.1 located
      dsimp only
      rw [looked, Except.ok_bind]
      rcases node with - | there
      · cases located
      · rfl
  unfold ensureFolder
  rw [exists', refuse]
  dsimp only
  rw [found]
  rfl

theorem createFolders_of_find {disk : Disk} {text : String} (found : disk.find text = .ok .folder) :
    disk.createFolders text = ([], none) := by
  unfold createFolders Path.folders
  split
  · rfl
  · rw [ensureFirst, ensureFolder_of_find found]

end SortedTable.Disk

import SortedTable.Proofs.Disk.Edit

namespace SortedTable.Disk

variable {disk later : Disk}

/-- What a text opens depends on the entries of a disk alone. -/
theorem find_congr (same : later.entries = disk.entries) (text : String) :
    later.find text = disk.find text := by
  have nodes (path : Path) : later.node? path = disk.node? path :=
    node?_congr fun _ => by rw [same]
  rw [find, find, locate_congr nodes]

/-- The bytes of one file are others; the rest of the disk is as before. -/
structure Replaces (disk later : Disk) (id : Nat) (bytes : Bytes) : Prop where
  entries : later.entries = disk.entries
  own : later.content id = bytes
  others : ∀ other, other ≠ id → later.content other = disk.content other

/-- A text that opens a file leads to a name without a slash behind it. -/
theorem place_of_find {text : String} {id : Nat} (found : disk.find text = .ok (.file id)) :
    ∃ folder name, disk.place text = .ok (.entry folder name false) ∧
      disk.lookup folder name = .ok (some (.file id)) := by
  obtain ⟨⟨path, node⟩, located, same⟩ := Except.map_eq_ok_iff.1 found
  obtain rfl : node = .file id := same
  obtain ⟨spot, led, located⟩ := Except.bind_eq_ok_iff.1 located
  cases spot with
  | folder => cases located
  | entry folder name closed =>
      obtain ⟨node?, looked, located⟩ := Except.bind_eq_ok_iff.1 located
      rcases node? with - | - | other
      · cases located
      · cases located
      · cases closed with
        | true => cases located
        | false =>
            cases located
            exact ⟨folder, name, led, looked⟩

end SortedTable.Disk

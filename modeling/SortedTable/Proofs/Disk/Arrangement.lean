import Mathlib.Data.List.Nodup
import SortedTable.Proofs.Disk.Basic
import SortedTable.Proofs.Outcome

namespace SortedTable.Disk

/-- Where no path has two entries, those that are found are all that there are. -/
theorem lookup_eq_some_iff_of_nodup {entries : List (Path × Node)}
    (distinct : (entries.map Prod.fst).Nodup) {path : Path} {node : Node} :
    entries.lookup path = some node ↔ (path, node) ∈ entries := by
  constructor
  · intro found
    obtain ⟨before, after, same, -⟩ := List.lookup_eq_some_iff.1 found
    simp [same]
  · intro member
    obtain ⟨before, after, rfl⟩ := List.append_of_mem member
    rw [List.map_append, List.map_cons] at distinct
    refine List.lookup_eq_some_iff.2 ⟨before, after, rfl, fun entry earlier => ?_⟩
    rw [bne_iff_ne]
    exact ((List.nodup_append.1 distinct).2.2 _ (List.mem_map_of_mem earlier) _
      List.mem_cons_self).symm

theorem lookup_eq_of_perm {entries others : List (Path × Node)} (same : others.Perm entries)
    (distinct : (entries.map Prod.fst).Nodup) (path : Path) :
    others.lookup path = entries.lookup path := by
  have distinct' : (others.map Prod.fst).Nodup := (same.map Prod.fst).nodup_iff.2 distinct
  refine Option.ext fun node => ?_
  rw [lookup_eq_some_iff_of_nodup distinct', lookup_eq_some_iff_of_nodup distinct, same.mem_iff]

/-- Two disks have the same entries and the same bytes, and every path has one entry at most. -/
structure Rearranges (disk other : Disk) : Prop where
  entries : other.entries.Perm disk.entries
  contents : other.contents = disk.contents
  distinct : (disk.entries.map Prod.fst).Nodup

namespace Rearranges

variable {disk other : Disk}

theorem node? (rearranges : disk.Rearranges other) (path : Path) :
    other.node? path = disk.node? path :=
  node?_congr fun _ => lookup_eq_of_perm rearranges.entries rearranges.distinct path

theorem find (rearranges : disk.Rearranges other) (text : String) :
    other.find text = disk.find text := by
  rw [Disk.find, Disk.find, locate_congr rearranges.node?]

theorem read (rearranges : disk.Rearranges other) (node : Node) :
    other.read node = disk.read node := by
  cases node with
  | folder => rfl
  | file id => rw [Disk.read, Disk.read, content, content, rearranges.contents]

/-- A folder lists the same names, maybe in another order. -/
theorem perm_names (rearranges : disk.Rearranges other) {text : String} {names names' : List String}
    (listed : disk.names text = .ok names) (listed' : other.names text = .ok names') :
    names'.Perm names := by
  unfold Disk.names at listed listed'
  rw [locate_congr rearranges.node?] at listed'
  obtain ⟨⟨folder, node⟩, located, listed⟩ := Except.bind_eq_ok_iff.1 listed
  rw [located, Except.ok_bind] at listed'
  cases node with
  | folder =>
      cases listed
      cases listed'
      exact rearranges.entries.filterMap _
  | file id => cases listed

end Rearranges

/-- The disk with its entries in the opposite order. -/
def reversed (disk : Disk) : Disk where
  entries := disk.entries.reverse
  contents := disk.contents
  bounded path id member := disk.bounded path id (List.mem_reverse.1 member)

theorem rearranges_reversed {disk : Disk} (distinct : (disk.entries.map Prod.fst).Nodup) :
    disk.Rearranges disk.reversed :=
  ⟨List.reverse_perm _, rfl, distinct⟩

end SortedTable.Disk

import SortedTable.Proofs.Layout.IndexScan
import SortedTable.Proofs.Layout.Records
import SortedTable.Proofs.Layout.Statistics
import SortedTable.Proofs.Reader

namespace SortedTable.Reader

variable {reader : Reader} {disk later : Disk}

/-- The summary of an open table lists the entries of its index, the keys ascending. -/
theorem IsOpenOn.exists_entries (whole : reader.IsOpenOn disk) :
    ∃ bytes entries, disk.read reader.index = .ok bytes ∧ IndexEntry.scan bytes = (entries, none) ∧
      reader.summary = entries.map (fun one => (one.key, one.position)) ∧
      reader.summary.Pairwise fun left right => compare left.1 right.1 = .lt := by
  obtain ⟨bytes, read, listed⟩ := whole.summary
  obtain ⟨entries, scanned, ordered, same⟩ := summarize_eq_ok_iff.1 listed
  refine ⟨bytes, entries, liftIo_eq_ok_iff.1 read, scanned, same, ?_⟩
  have ascending := pairwise_of_firstOutOfOrder _ ordered
  rw [same, List.pairwise_map]
  exact List.pairwise_map.1 ascending

/-- Where a scan noted an entry, this entry is read again. -/
theorem entryAt_of_scan {bytes : Bytes} {entries : List ScannedEntry} {fault : Option TableError}
    (read : later.read reader.index = .ok bytes) (room : bytes.length ≤ offsetLimit)
    (scanned : IndexEntry.scan bytes = (entries, fault)) {one : ScannedEntry}
    (member : one ∈ entries) :
    reader.entryAt later one.position = .ok (some (one.key, one.entry)) := by
  have words : offsetLimit < UInt64.size := by decide
  obtain ⟨inside, again⟩ := IndexEntry.decode?_of_scan scanned (by omega) member
  rw [entryAt, readFrom, if_pos (by omega), read]
  exact again

/-- For each key that is listed the entry is found that stands where the summary says. -/
theorem entry?_of_mem {key : Key} {position : UInt64} {entry : IndexEntry}
    (ascending : reader.summary.Pairwise fun left right => compare left.1 right.1 = .lt)
    (member : (key, position) ∈ reader.summary) (admitted : reader.mayContain key = true)
    (stands : reader.entryAt later position = .ok (some (key, entry))) :
    reader.entry? later key = .ok (some entry) := by
  rw [ entry?, if_pos admitted, indexPosition?_of_mem ascending member]
  dsimp only
  rw [stands, Except.ok_bind]
  exact if_pos rfl

/-- A key that the filter does not admit is not looked up. -/
theorem entry?_of_not_mayContain {key : Key} (refused : reader.mayContain key = false) (disk : Disk) :
    reader.entry? disk key = .ok none := by
  rw [ entry?, if_neg (by rw [refused]; exact Bool.false_ne_true)]

/-- Every table that could be opened finds exactly the entries that the scan of its index noted. -/
theorem lookup_of_load {descriptor : Descriptor} (loaded : load disk descriptor = .ok reader)
    (kept : later.read reader.index = disk.read reader.index)
    (room : ∀ bytes, disk.read reader.index = .ok bytes → bytes.length ≤ offsetLimit) :
    ∃ bytes entries, disk.read reader.index = .ok bytes ∧
      IndexEntry.scan bytes = (entries, none) ∧
      reader.keys = entries.map ScannedEntry.key ∧
      (reader.keys.Pairwise fun left right => compare left right = .lt) ∧
      reader.keys.length = reader.statistics.partitions.toNat ∧
      (∀ one ∈ entries, reader.keyAt later one.position = .ok one.key ∧
        (reader.mayContain one.key = true → reader.entry? later one.key = .ok (some one.entry))) ∧
      (∀ key, key ∉ reader.keys ∨ reader.mayContain key = false →
        reader.entry? later key = .ok none) ∧
      ∀ key position,
        reader.entry? later key ≠ .error (.corrupt (.mismatchingEntry position)) := by
  obtain ⟨-, -, -, -, whole⟩ := load_eq_ok_iff.1 loaded
  obtain ⟨bytes, entries, read, scanned, listed, ascending⟩ := whole.exists_entries
  have keys : reader.keys = entries.map ScannedEntry.key := by
    rw [Reader.keys, listed, List.map_map]
    rfl
  have stands {one : ScannedEntry} (member : one ∈ entries) :
      reader.entryAt later one.position = .ok (some (one.key, one.entry)) :=
    entryAt_of_scan (kept.trans read) (room bytes read) scanned member
  have found {one : ScannedEntry} (member : one ∈ entries)
      (admitted : reader.mayContain one.key = true) :
      reader.entry? later one.key = .ok (some one.entry) :=
    entry?_of_mem ascending (by rw [listed]; exact List.mem_map_of_mem member) admitted
      (stands member)
  have missing {key : Key} (absent : key ∉ reader.keys ∨ reader.mayContain key = false) :
      reader.entry? later key = .ok none :=
    absent.elim (entry?_of_notMem · later) (entry?_of_not_mayContain · later)
  refine ⟨bytes, entries, read, scanned, keys, List.pairwise_map.2 ascending, ?_,
    fun one member => ⟨?_, found member⟩, fun key absent => missing absent, fun key position => ?_⟩
  · rw [Reader.keys, List.length_map]
    exact whole.counted
  · rw [keyAt, stands member]
    rfl
  · -- the key is missing, or it is that of a noted entry which the filter admits
    by_cases absent : key ∉ reader.keys ∨ reader.mayContain key = false
    · simp [missing absent]
    · obtain ⟨among, admitted⟩ := not_or.1 absent
      rw [not_not, keys] at among
      obtain ⟨one, member, rfl⟩ := List.mem_map.1 among
      simp [found member (Bool.of_not_eq_false admitted)]

/-- The table of the first generation in the current folder. -/
def firstTable : Descriptor := ⟨".", 1, .current⟩

/-- A folder with the files of a table that no writer wrote, of two keys and a stray byte. -/
def handMade (partitions : UInt64) : Disk :=
  Disk.empty.applyAll [.create [firstTable.fileName .contents] 0, .create [firstTable.fileName .data] 1,
    .create [firstTable.fileName .index] 2,
    .write 2 0 ([1, 0, 97] ++ Bytes.word64 9 ++ [0, 0, 0, 0] ++ (WrittenEntry.bare 7).bytes ++ [5]),
    .create [firstTable.fileName .statistics] 3,
    .write 3 0 (({ Statistics.empty 0 with partitions := partitions }.fields).toOption.getD []).flatten]

/-- Both keys of the table are found in it, and another one is not. -/
theorem lookup_of_load_handMade :
    ∃ reader, load (handMade 2) firstTable = .ok reader ∧ (handMade 2).read reader.index =
        .ok ((handMade 2).content 2) ∧ ((handMade 2).content 2).length ≤ offsetLimit ∧
      reader.keys = [.ofBytes [97], .ofBytes [107]] ∧
      reader.entry? (handMade 2) (.ofBytes [97]) = .ok (some ⟨9, []⟩) ∧
      reader.entry? (handMade 2) (.ofBytes [107]) = .ok (some ⟨7, []⟩) ∧
      reader.keyAt (handMade 2) 15 = .ok (.ofBytes [107]) ∧
      reader.entry? (handMade 2) (.ofBytes [98]) = .ok none := by
  have opened : (load (handMade 2) firstTable).toOption.map (fun reader => (reader.index,
      reader.mayContain (.ofBytes [97]), reader.mayContain (.ofBytes [107]))) =
      some (.file 2, true, true) := by decide +kernel
  have scan : (IndexEntry.scan ((handMade 2).content 2)).1 =
      [⟨.ofBytes [97], ⟨9, []⟩, 0⟩, ⟨.ofBytes [107], ⟨7, []⟩, 15⟩] := by decide +kernel
  obtain ⟨reader, loaded, same⟩ := Option.map_eq_some_iff.1 opened
  simp only [Prod.mk.injEq] at same
  obtain ⟨index, first, second⟩ := same
  have loaded := Except.toOption_eq_some_iff.1 loaded
  have read : (handMade 2).read reader.index = .ok ((handMade 2).content 2) := by rw [index]; rfl
  have room : ((handMade 2).content 2).length ≤ offsetLimit := by decide +kernel
  obtain ⟨bytes, entries, read', scanned, keys, -, -, found, missing, -⟩ := lookup_of_load loaded rfl
    fun bytes same => by cases read.symm.trans same; exact room
  cases read.symm.trans read'
  rw [scanned] at scan
  cases scan
  have one := found _ List.mem_cons_self
  have two := found _ (List.mem_cons_of_mem _ List.mem_cons_self)
  refine ⟨reader, loaded, read, room, keys, one.2 first, two.2 second, two.1, missing _ (.inl ?_)⟩
  rw [keys]
  decide +kernel

end SortedTable.Reader

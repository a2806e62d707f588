import SortedTable.Proofs.Lookup

namespace SortedTable

/-- A decoder that fails only where its bytes end. -/
def Decoder.FailsAtEnd {α : Type} (decoder : Decoder TableError α) : Prop :=
  ∀ bytes error, decoder bytes = .error error → error = .io .unexpectedEnd

namespace Decoder.FailsAtEnd

variable {α β : Type}

theorem pure (value : α) : FailsAtEnd (Pure.pure value) := nofun

theorem bind {decoder : Decoder TableError α} {next : α → Decoder TableError β}
    (first : FailsAtEnd decoder) (further : ∀ value, FailsAtEnd (next value)) :
    FailsAtEnd (decoder >>= next) := by
  intro bytes error failed
  change (decoder bytes).bind (fun taken => next taken.1 taken.2) = .error error at failed
  cases taken : decoder bytes with
  | ok result =>
      rw [taken] at failed
      exact further result.1 result.2 error failed
  | error cause =>
      rw [taken] at failed
      cases failed
      exact first bytes error taken

theorem map {decoder : Decoder TableError α} (first : FailsAtEnd decoder) (change : α → β) :
    FailsAtEnd (change <$> decoder) := first.bind fun _ => .pure _

theorem take (count : Nat) : FailsAtEnd (Decoder.take count) := by
  intro bytes error failed
  unfold Decoder.take at failed
  dsimp only at failed
  split at failed <;> cases failed
  rfl

theorem little (width : Nat) : FailsAtEnd (Decoder.little width) := (take width).map _

theorem word64 : FailsAtEnd Decoder.word64 := (little 8).map _

end Decoder.FailsAtEnd

/-- Statistics under the right checksum are only unreadable if they are too short. -/
theorem Statistics.failsAtEnd_decodeBody : Decoder.FailsAtEnd decodeBody :=
  have int64 : Decoder.FailsAtEnd Decoder.int64 := Decoder.FailsAtEnd.word64.map _
  .bind .word64 fun _ => .bind .word64 fun _ => .bind .word64 fun _ => .bind .word64 fun _ =>
    .bind int64 fun _ => .bind int64 fun _ => .bind (.little 2) fun _ => .bind (.take _) fun _ =>
      .bind (.little 2) fun _ => .bind (.take _) fun _ => .bind .word64 fun _ => .pure _

namespace Descriptor

variable {descriptor : Descriptor} {disk : Disk}

/-- A filter that cannot be loaded is reported as such. -/
theorem exists_of_loadFilter_error {error : TableError}
    (failed : descriptor.loadFilter disk = .error error) : ∃ cause, error = .filter cause := by
  unfold loadFilter at failed
  split at failed
  · cases failed
  · split at failed
    · cases failed
      exact ⟨_, rfl⟩
    · split at failed
      · cases failed
      · cases failed
        exact ⟨_, rfl⟩

end Descriptor

namespace Reader

variable {descriptor : Descriptor} {disk : Disk} {entries : List ScannedEntry}

/-- What becomes of a table whose statistics record another number of partitions than its index has. -/
theorem ofParts_of_miscount {index : Node} {bytes : Bytes} {filter : Filter}
    {statistics : Statistics} (opened : descriptor.open? disk .index = .ok index)
    (read : disk.read index = .ok bytes) (scanned : IndexEntry.scan bytes = (entries, none))
    (differs : entries.length ≠ statistics.partitions.toNat) :
    ofParts .sound disk descriptor filter statistics = .error
      (if summaryLimit < statistics.partitions.toNat then .overflow .capacity
      else
        match firstOutOfOrder (entries.map ScannedEntry.key) with
        | some key => .corrupt (.keyOutOfOrder key)
        | none => .corrupt (.entryCount entries.length statistics.partitions)) := by
  have sound : checkMedium .sound .index = .ok () := rfl
  rw [ofParts, sound, Except.ok_bind, opened, Except.ok_bind]
  split
  · rfl
  · have content : (liftIo (disk.read index) : Except TableError Bytes) = .ok bytes :=
      liftIo_eq_ok_iff.2 read
    dsimp only
    rw [content, Except.ok_bind, summarize, scanned]
    dsimp only
    cases firstOutOfOrder (entries.map ScannedEntry.key) with
    | some key => rfl
    | none =>
        dsimp only
        rw [Except.ok_bind, List.length_map, if_pos differs]
        rfl

/-- A table whose statistics record another number of partitions than its index has is never opened. -/
theorem load_of_miscount {index statistics : FileId} {body : Bytes}
    (committed : descriptor.isCommitted disk = true)
    (indexed : disk.find (descriptor.finalPath .index) = .ok (.file index))
    (scanned : IndexEntry.scan (disk.content index) = (entries, none))
    (recorded : disk.find (descriptor.finalPath .statistics) = .ok (.file statistics))
    (checked : disk.content statistics =
      body ++ (Bytes.word32 (Checksum.crc32 body) ++ Bytes.word32 Statistics.magic)) :
    (∀ error, Statistics.decodeBody body = .error error →
      load disk descriptor = .error (.io .unexpectedEnd)) ∧
    ∀ record rest, Statistics.decodeBody body = .ok (record, rest) →
      entries.length ≠ record.partitions.toNat →
      (record.partitions.toNat ≤ summaryLimit →
        (∀ filter, descriptor.loadFilter disk = .ok filter →
          firstOutOfOrder (entries.map ScannedEntry.key) = none →
          load disk descriptor = .error (.corrupt (.entryCount entries.length record.partitions))) ∧
        ∃ error, load disk descriptor = .error error ∧ ∀ cause, error ≠ .overflow cause) ∧
      (summaryLimit < record.partitions.toNat →
        ∀ filter, descriptor.loadFilter disk = .ok filter →
          load disk descriptor = .error (.overflow .capacity)) := by
  have decoded : descriptor.loadStatistics disk =
      (Statistics.decodeBody body).map Prod.fst := by
    rw [Descriptor.loadStatistics_of_find recorded, checked, Statistics.decode_trailer, if_pos rfl]
  have opened : descriptor.open? disk .index = .ok (.file index) := liftIo_eq_ok_iff.2 indexed
  refine ⟨fun error failed => ?_, fun record rest taken differs => ?_⟩
  · rw [load, if_pos committed, decoded, failed, Statistics.failsAtEnd_decodeBody body error failed]
    rfl
  · have loads (filter : Filter) (loaded : descriptor.loadFilter disk = .ok filter) :
        load disk descriptor = .error
          (if summaryLimit < record.partitions.toNat then .overflow .capacity
          else
            match firstOutOfOrder (entries.map ScannedEntry.key) with
            | some key => .corrupt (.keyOutOfOrder key)
            | none => .corrupt (.entryCount entries.length record.partitions)) := by
      rw [load, if_pos committed, decoded, taken, Except.map, Except.ok_bind, loaded, Except.ok_bind]
      exact ofParts_of_miscount opened rfl scanned differs
    refine ⟨fun small => ⟨fun filter loaded ordered => ?_, ?_⟩, fun large filter loaded => ?_⟩
    · rw [loads filter loaded, if_neg (Nat.not_lt.2 small), ordered]
    · cases loaded : descriptor.loadFilter disk with
      | ok filter =>
          refine ⟨_, loads filter loaded, fun cause => ?_⟩
          rw [if_neg (Nat.not_lt.2 small)]
          split <;> nofun
      | error error =>
          obtain ⟨cause, rfl⟩ := Descriptor.exists_of_loadFilter_error loaded
          refine ⟨.filter cause, ?_, nofun⟩
          rw [load, if_pos committed, decoded, taken, Except.map, Except.ok_bind, loaded]
          rfl
    · rw [loads filter loaded, if_pos large]

/-- The statistics of the table made by hand, in front of their checksum. -/
def handMadeBody (partitions : UInt64) : Bytes :=
  ({ Statistics.empty 0 with partitions := partitions }.encodeBody).toOption.getD []

/-- Two entries where five partitions are recorded are an error. -/
theorem load_of_miscount_handMade :
    load (handMade 5) firstTable = .error (.corrupt (.entryCount 2 5)) := by
  obtain ⟨committed, indexed, recorded, checked, complete⟩ :
      firstTable.isCommitted (handMade 5) = true ∧
      ((handMade 5).find (firstTable.finalPath .index)).toOption = some (.file 2) ∧
      ((handMade 5).find (firstTable.finalPath .statistics)).toOption = some (.file 3) ∧
      (handMade 5).content 3 = handMadeBody 5 ++
        (Bytes.word32 (Checksum.crc32 (handMadeBody 5)) ++ Bytes.word32 Statistics.magic) ∧
      (IndexEntry.scan ((handMade 5).content 2)).2.isNone = true := by decide +kernel
  obtain ⟨taken, loaded, ordered, counted⟩ :
      (Statistics.decodeBody (handMadeBody 5)).toOption =
        some ({ Statistics.empty 0 with partitions := 5 }, []) ∧
      (firstTable.loadFilter (handMade 5)).toOption = some .alwaysPresent ∧
      firstOutOfOrder ((IndexEntry.scan ((handMade 5).content 2)).1.map ScannedEntry.key) = none ∧
      (IndexEntry.scan ((handMade 5).content 2)).1.length = 2 := by decide +kernel
  have scanned : IndexEntry.scan ((handMade 5).content 2) =
      ((IndexEntry.scan ((handMade 5).content 2)).1, none) :=
    Prod.ext rfl (Option.isNone_iff_eq_none.1 complete)
  obtain ⟨-, miscounted⟩ := load_of_miscount committed (Except.toOption_eq_some_iff.1 indexed) scanned
    (Except.toOption_eq_some_iff.1 recorded) checked
  obtain ⟨reported, -⟩ := miscounted _ _ (Except.toOption_eq_some_iff.1 taken)
    (by rw [counted]; decide)
  obtain ⟨wrong, -⟩ := reported (by decide)
  rw [wrong _ (Except.toOption_eq_some_iff.1 loaded) ordered, counted]

/-- The table made by hand with statistics that record 2^63 partitions. -/
def overstated : Disk := handMade 0x8000000000000000

/-- Statistics that record 2^63 partitions keep a table of two from being opened by an overflow. -/
theorem load_overflows_by_count :
    firstTable.isCommitted overstated = true ∧
      (Statistics.decode (overstated.content 3)).toOption =
        some { Statistics.empty 0 with partitions := 0x8000000000000000 } ∧
      (IndexEntry.scan (overstated.content 2)).2 = none ∧
      (IndexEntry.scan (overstated.content 2)).1.length = 2 ∧
      firstOutOfOrder ((IndexEntry.scan
        (overstated.content 2)).1.map ScannedEntry.key) = none ∧
      firstTable.loadFilter overstated = .ok .alwaysPresent ∧
      load overstated firstTable = .error (.overflow .capacity) := by
  obtain ⟨committed, recorded, complete, counted, ordered, loaded, indexed⟩ :
      firstTable.isCommitted overstated = true ∧
      (firstTable.loadStatistics overstated).toOption =
        some { Statistics.empty 0 with partitions := 0x8000000000000000 } ∧
      (IndexEntry.scan (overstated.content 2)).2.isNone = true ∧
      (IndexEntry.scan (overstated.content 2)).1.length = 2 ∧
      firstOutOfOrder ((IndexEntry.scan
        (overstated.content 2)).1.map ScannedEntry.key) = none ∧
      (firstTable.loadFilter overstated).toOption = some .alwaysPresent ∧
      (firstTable.open? overstated .index).toOption = some (.file 2) := by
    decide +kernel
  have scanned := Option.isNone_iff_eq_none.1 complete
  have loaded := Except.toOption_eq_some_iff.1 loaded
  refine ⟨committed, by decide +kernel, scanned, counted, ordered, loaded, ?_⟩
  rw [load, if_pos committed, Except.toOption_eq_some_iff.1 recorded, Except.ok_bind, loaded,
    Except.ok_bind, ofParts_of_miscount (Except.toOption_eq_some_iff.1 indexed) rfl
      (Prod.ext rfl scanned) (by rw [counted]; decide), if_pos (by decide)]

end Reader

end SortedTable

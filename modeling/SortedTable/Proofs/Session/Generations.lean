import SortedTable.Proofs.Session.Housed

namespace SortedTable.Session

variable {settings : Settings} {folder : Path} {opened session next last : Session} {own : List Reader}
  {store began reached later : Store} {medium : Medium} {names : List String}

/-- The tables of a session are those that it was opened with and then its own ones, ascending. -/
structure Adds (opened session : Session) (own : List Reader) : Prop where
  tables : session.tables = opened.tables ++ own
  before : ∀ table ∈ opened.tables, table.descriptor.generation < opened.nextGeneration
  given : ∀ table ∈ own, opened.nextGeneration ≤ table.descriptor.generation ∧
    table.descriptor.generation < session.nextGeneration
  ascending : own.Pairwise fun earlier later =>
    earlier.descriptor.generation < later.descriptor.generation
  further : opened.nextGeneration ≤ session.nextGeneration

/-- What a session was opened with has lower generations than the next one. -/
theorem adds_of_start (started : Session.start settings store = (.ok opened, began)) :
    Adds opened opened [] := by
  obtain ⟨names, tables, next, -, rfl, own, -, counted⟩ := opened_of_start started
  refine ⟨(List.append_nil _).symm, fun table member => ?_, nofun, .nil, UInt64.le_refl _⟩
  have committed : table.descriptor ∈ Descriptor.committed settings.dataDir names := by
    rw [← own]
    exact List.mem_map_of_mem member
  obtain ⟨name, present, read⟩ := Descriptor.mem_committed_iff.1 committed
  exact Descriptor.lt_of_nextGeneration counted present (Descriptor.generationOf?_of_ofFileName? read)

namespace Adds

/-- All tables of a session are of generations that were given out. -/
theorem generation_lt (adds : Adds opened session own) {table : Reader}
    (member : table ∈ session.tables) : table.descriptor.generation < session.nextGeneration := by
  rw [adds.tables] at member
  rcases List.mem_append.1 member with member | member
  · exact UInt64.lt_of_lt_of_le (adds.before table member) adds.further
  · exact (adds.given table member).2

/-- Another buffer changes nothing. -/
theorem withBuffer (adds : Adds opened session own) (memtable : Memtable) (time : Int64) :
    Adds opened { session with lastTimestamp := time, memtable } own :=
  ⟨adds.tables, adds.before, adds.given, adds.ascending, adds.further⟩

/-- A flush that succeeds adds a table of the next generation. -/
theorem flush (adds : Adds opened session own)
    (housed : session.IsHoused settings folder store.disk) {summary : Option FlushSummary}
    (flushed : session.flush medium store = (.ok summary, next, later)) :
    session.memtable.isEmpty = true ∧ next = session ∨ ∃ table, next.tables = session.tables ++ [table] ∧
      table.descriptor.directory = settings.dataDir ∧
      table.descriptor.generation = session.nextGeneration ∧ Adds opened next (own ++ [table]) := by
  rcases flush_eq_ok flushed with ⟨empty, rfl, -⟩ | ⟨plan, reader, generation, planned, written,
    counted, rfl⟩
  · exact .inl ⟨empty, rfl⟩
  obtain ⟨still, -, vacant⟩ := housed.ready.resides planned
  obtain ⟨-, -, directory, generation_eq⟩ := flushPlan_eq_ok planned
  rw [← still] at vacant
  have same := (Memtable.opens_of_flush vacant written).1
  rw [← same] at directory generation_eq
  have above := toNat_of_exactSum counted
  have one : (1 : UInt64).toNat = 1 := rfl
  have grown : session.nextGeneration < generation := by
    rw [UInt64.lt_iff_toNat_lt]
    omega
  refine .inr ⟨reader, rfl, directory.trans (congrArg _ housed.same), generation_eq, ?_⟩
  exact
    { tables := by rw [adds.tables, List.append_assoc]
      before := adds.before
      given := by
        intro table member
        rcases List.mem_append.1 member with member | member
        · obtain ⟨from', below⟩ := adds.given table member
          exact ⟨from', UInt64.lt_trans below grown⟩
        · rw [List.mem_singleton.1 member, generation_eq]
          exact ⟨adds.further, grown⟩
      ascending := by
        refine List.pairwise_append.2 ⟨adds.ascending, List.pairwise_singleton _ _, ?_⟩
        intro table member other member'
        rw [List.mem_singleton.1 member', generation_eq]
        exact (adds.given table member).2
      further := UInt64.le_of_lt (UInt64.lt_of_le_of_lt adds.further grown) }

/-- An action adds a table at most. -/
theorem undergo (adds : Adds opened session own)
    (housed : session.IsHoused settings folder store.disk) {action : Action}
    (underwent : session.undergo store action = (.ok next, later)) :
    ∃ own', Adds opened next own' := by
  cases action with
  | put now key column value =>
      cases underwent
      exact ⟨own, adds.withBuffer _ _⟩
  | putStatic now key column value =>
      cases underwent
      exact ⟨own, adds.withBuffer _ _⟩
  | delete now key =>
      cases underwent
      exact ⟨own, adds.withBuffer _ _⟩
  | flush medium =>
      rcases undergo_flush_eq_ok underwent with ⟨summary, flushed⟩ | ⟨error, counted, failed⟩
      · rcases adds.flush housed flushed with ⟨-, rfl⟩ | ⟨table, -, -, -, adds'⟩
        · exact ⟨own, adds⟩
        · exact ⟨own ++ [table], adds'⟩
      · obtain ⟨rfl, -, -⟩ := housed.flush_error failed counted
        exact ⟨own, adds⟩

/-- Over all actions a session adds tables of ascending generations. -/
theorem undergoAll (adds : Adds opened session own)
    (housed : session.IsHoused settings folder store.disk) {actions : List Action}
    (underwent : session.undergoAll store actions = (.ok last, later)) :
    ∃ own', Adds opened last own' := by
  induction actions generalizing session store own with
  | nil =>
      cases underwent
      exact ⟨own, adds⟩
  | cons action rest ih =>
      rw [Session.undergoAll] at underwent
      split at underwent
      · cases underwent
      · rename_i first
        obtain ⟨middle, adds⟩ := adds.undergo housed first
        exact ih adds (housed.undergo first) underwent

end Adds

/-- Every flush takes a generation above all that are in the folder, as long as there is one. -/
theorem generation_of_flush (names : List String) (settings : Settings) (store : Store) :
    ((∃ next, Descriptor.nextGeneration names = .ok next) ↔
      ∀ name ∈ names, Descriptor.generationOf? name ≠ some Descriptor.lastGeneration) ∧
    (Descriptor.nextGeneration names = .error .addition ↔
      ∃ name ∈ names, Descriptor.generationOf? name = some Descriptor.lastGeneration) ∧
    (∀ next, Descriptor.nextGeneration names = .ok next →
      (∀ (table : Descriptor) isFinal component,
        table.nameOf isFinal component ∈ names → table.generation < next) ∧
      ∀ bound, next ≤ bound ↔ 0 < bound ∧ ∀ name ∈ names, ∀ generation,
        Descriptor.generationOf? name = some generation → generation < bound) ∧
    (∀ session later, Session.start settings store = (.ok session, later) →
      store.disk.names settings.dataDir = .ok names →
      ∀ name ∈ names, Descriptor.generationOf? name ≠ some Descriptor.lastGeneration) ∧
    ∀ opened began actions session reached medium summary last later,
      Session.start settings store = (.ok opened, began) →
      opened.undergoAll began actions = (.ok session, reached) →
      session.flush medium reached = (.ok (some summary), last, later) →
      ∃ present own table, reached.disk.names settings.dataDir = .ok present ∧
        session.tables = opened.tables ++ own ∧ last.tables = session.tables ++ [table] ∧
        table.descriptor.directory = settings.dataDir ∧
        (∀ name ∈ present, ∀ generation, Descriptor.generationOf? name = some generation →
          generation < table.descriptor.generation) ∧
        (∀ version isFinal component, Descriptor.nameOf
          ⟨settings.dataDir, table.descriptor.generation, version⟩ isFinal component ∉ present) ∧
        (∀ earlier ∈ session.tables,
          earlier.descriptor.generation < table.descriptor.generation) ∧
        own.Pairwise fun earlier later =>
          earlier.descriptor.generation < later.descriptor.generation := by
  refine ⟨Descriptor.exists_nextGeneration_iff, Descriptor.nextGeneration_eq_error_iff,
    fun next counted => ⟨fun table isFinal component member => ?_, fun bound => ?_⟩,
    fun _ _ => not_last_of_start, ?_⟩
  · exact Descriptor.lt_of_nextGeneration counted member (table.generationOf?_nameOf isFinal component)
  · exact Descriptor.nextGeneration_le_iff counted
  · intro opened began actions session reached medium summary last later started underwent flushed
    obtain ⟨folder, housed⟩ := exists_isHoused started
    obtain ⟨own, adds⟩ := (adds_of_start started).undergoAll housed underwent
    have housed := housed.undergoAll underwent
    obtain ⟨present, listed⟩ := Disk.exists_names housed.located
    obtain ⟨folder', located, found⟩ := Disk.mem_names_iff listed
    rw [housed.located] at located
    cases located
    rcases adds.flush housed flushed with ⟨empty, -⟩ | ⟨table, tables, directory, generation, -⟩
    · rw [Session.flush, if_pos empty] at flushed
      cases flushed
    -- the session was housed all the time, so no name is of a generation that it has still to give out
    have fresh : ∀ name ∈ present, ∀ generation, Descriptor.generationOf? name = some generation →
        generation < table.descriptor.generation := by
      intro name member given read
      have proper := Descriptor.isDots_of_generationOf? read
      rw [generation]
      exact housed.earlier name given ((found name proper).1 member) read
    refine ⟨present, own, table, listed, adds.tables, tables, directory, fresh, ?_, ?_,
      adds.ascending⟩
    · intro version isFinal component member
      exact UInt64.lt_irrefl _
        (fresh _ member _ (Descriptor.generationOf?_nameOf _ isFinal component))
    · intro earlier member
      rw [generation]
      exact adds.generation_lt member

/-- Behind the trial the next flush gets the second generation, in a folder with names of the first. -/
theorem generation_of_flush_trial :
    ∃ summary last later names table,
      trialEnd.1.flush .sound trialEnd.2 = (.ok (some summary), last, later) ∧
      trialEnd.2.disk.names "tables" = .ok names ∧ "nb-1-big-Data.db" ∈ names ∧
      last.tables = trialEnd.1.tables ++ [table] ∧ 1 < table.descriptor.generation ∧
      ∀ version isFinal component, Descriptor.nameOf
        ⟨"tables", table.descriptor.generation, version⟩ isFinal component ∉ names := by
  have evaluated :
      (Session.start trialSettings ⟨.empty, []⟩).1.toOption.isSome = true ∧
      (trialStart.1.performAll trialStart.2 trial).toOption.isSome = true ∧
      (trialEnd.1.flush .sound trialEnd.2).1.toOption.join.isSome = true ∧
      (trialEnd.2.disk.names "tables").toOption.all (fun names => "nb-1-big-Data.db" ∈ names) = true ∧
      Descriptor.generationOf? "nb-1-big-Data.db" = some 1 := by
    decide +kernel
  obtain ⟨started, performed, flushed, present, read⟩ := evaluated
  have started : Session.start trialSettings ⟨.empty, []⟩ = (.ok trialStart.1, trialStart.2) :=
    Prod.ext (Except.eq_ok_getD started) rfl
  have underwent := undergoAll_of_performAll (Except.eq_ok_getD performed)
  obtain ⟨summary, flushed⟩ := Option.isSome_iff_exists.1 flushed
  rw [Option.join_eq_some_iff, Except.toOption_eq_some_iff] at flushed
  obtain ⟨-, -, -, -, run⟩ := generation_of_flush [] trialSettings ⟨.empty, []⟩
  obtain ⟨names, own, table, listed, -, tables, -, fresh, vacant, -, -⟩ :=
    run trialStart.1 trialStart.2 trial trialEnd.1 trialEnd.2 .sound summary
      (trialEnd.1.flush .sound trialEnd.2).2.1 (trialEnd.1.flush .sound trialEnd.2).2.2 started underwent
      (Prod.ext flushed rfl)
  rw [show trialEnd.2.disk.names "tables" = .ok names from listed] at present
  have member : "nb-1-big-Data.db" ∈ names := of_decide_eq_true present
  exact ⟨summary, _, _, names, table, Prod.ext flushed rfl, listed, member, tables,
    fresh _ member _ read, vacant⟩

/-- A folder with the data of a table of the last generation. -/
def lastFolder : Disk :=
  Disk.empty.applyAll [.createFolder ["tables"],
    .create ["tables", "nb-18446744073709551615-big-Data.db"] 0]

/-- Behind a name of the last generation there is no next one, and no session is started in its
folder. -/
theorem nextGeneration_of_lastFolder :
    (Descriptor.mk "tables" 18446744073709551615 .nb).nameOf true .data =
        "nb-18446744073709551615-big-Data.db" ∧
      lastFolder.names "tables" = .ok ["nb-18446744073709551615-big-Data.db"] ∧
      Descriptor.nextGeneration ["nb-18446744073709551615-big-Data.db"] = .error .addition ∧
      ∀ session later, Session.start trialSettings ⟨lastFolder, []⟩ ≠ (.ok session, later) := by
  have evaluated :
      (Descriptor.mk "tables" 18446744073709551615 .nb).nameOf true .data =
        "nb-18446744073709551615-big-Data.db" ∧
      lastFolder.names "tables" = .ok ["nb-18446744073709551615-big-Data.db"] ∧
      Descriptor.nextGeneration ["nb-18446744073709551615-big-Data.db"] = .error .addition ∧
      Descriptor.generationOf? "nb-18446744073709551615-big-Data.db" =
        some Descriptor.lastGeneration := by
    decide +kernel
  obtain ⟨name, listed, failed, read⟩ := evaluated
  refine ⟨name, listed, failed, fun session later started => ?_⟩
  exact not_last_of_start started listed _ List.mem_cons_self read

end SortedTable.Session

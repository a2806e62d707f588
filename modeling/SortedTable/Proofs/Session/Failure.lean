import SortedTable.Proofs.Session.Schedule

namespace SortedTable

namespace Session

variable {settings : Settings} {folder : Path} {session next last : Session} {store later : Store}
  {medium : Medium}

/-- Where nothing was left under the names of the next table, the session knows what it knew. -/
theorem Spared.unnoticed {disk after : Disk} {descriptor : Descriptor}
    (spared : session.Spared folder disk descriptor after)
    (current : session.IsCurrent settings folder disk)
    (nothing : ∀ isFinal component,
      after.node? (folder ++ [descriptor.nameOf isFinal component]) = none) :
    session.IsCurrent settings folder after ∧
      ∀ key, session.reading after key = session.reading disk key := by
  have before {name : String} (there : after.node? (folder ++ [name]) ≠ none) :
      disk.node? (folder ++ [name]) ≠ none := by
    rcases spared.nameOf_or_there there with ⟨isFinal, component, rfl⟩ | there
    · exact absurd (nothing isFinal component) there
    · exact there
  refine ⟨⟨current.same, spared.located current, current.plain,
    fun table member => ⟨(current.loaded table member).1, spared.loaded current member⟩,
    current.ordered, fun name descriptor there => current.listed name descriptor (before there),
    fun name generation there => current.earlier name generation (before there)⟩, fun key => ?_⟩
  rw [Session.reading_eq current.plain, Session.reading_eq current.plain,
    spared.map_reading current key]

/-- A session is started with valid settings only. -/
theorem validate_of_start (started : Session.start settings store = (.ok session, later)) :
    settings.validate = .ok () := by
  cases checked : settings.validate with
  | ok => rfl
  | error cause =>
      rw [Session.start, checked] at started
      cases started

/-- A session that is started on a folder that is there changes nothing. -/
theorem eq_of_start (started : Session.start settings store = (.ok session, later))
    (located : store.disk.locate settings.dataDir = .ok (folder, .folder)) :
    later = store ∧ settings.validate = .ok () := by
  have found : store.disk.find settings.dataDir = .ok .folder :=
    Disk.find_of_locate located
  have valid := validate_of_start started
  rw [start_of_find valid found] at started
  exact ⟨(Prod.mk.inj started).2.symm, valid⟩

/-- No session is started in a folder with a name of the last generation. -/
theorem not_last_of_start {names : List String}
    (started : Session.start settings store = (.ok session, later))
    (listed : store.disk.names settings.dataDir = .ok names) :
    ∀ name ∈ names, Descriptor.generationOf? name ≠ some Descriptor.lastGeneration := by
  obtain ⟨folder, located, -⟩ := Disk.mem_names_iff listed
  obtain ⟨rfl, -⟩ := eq_of_start started located
  obtain ⟨tables, next, -, -, -, counted⟩ := ofDisk_eq_ok (ofDisk_of_start started) listed
  exact Descriptor.exists_nextGeneration_iff.1 ⟨next, counted⟩

/-- A folder in which no session can be started, because there is no further generation. -/
def IsExhausted (directory : String) (disk : Disk) : Prop :=
  ∀ settings session store later, settings.dataDir = directory → store.disk = disk →
    Session.start settings store ≠ (.ok session, later)

/-- A table of the last generation exhausts its folder. -/
theorem isExhausted_of_load {disk : Disk} {table : Reader} {descriptor : Descriptor}
    (loaded : Reader.load disk descriptor = .ok table)
    (located : disk.locate descriptor.directory = .ok (folder, .folder)) {cause : Overflow}
    (counted : exactSum descriptor.generation 1 = .error cause) :
    IsExhausted descriptor.directory disk := by
  rintro settings session store later directory rfl started
  rw [← directory] at located
  obtain ⟨rfl, -⟩ := eq_of_start started located
  obtain ⟨names, listed⟩ := Disk.exists_names located
  obtain ⟨folder', located', found⟩ := Disk.mem_names_iff listed
  rw [located] at located'
  cases located'
  have there := Reader.contents_of_load loaded
    (Disk.enter_of_locate (directory.symm ▸ located))
  have member := (found _ (descriptor.isName_nameOf true .contents).proper).2 there
  have read := descriptor.generationOf?_nameOf true .contents
  rw [Descriptor.eq_lastGeneration_of_exactSum counted] at read
  exact not_last_of_start started listed _ member read

/-- A flush that fails is not noticed, unless its table is one of the last generation. -/
theorem IsCurrent.flush_error (current : session.IsCurrent settings folder store.disk)
    {error : SessionError} (fits : session.FlushFits medium)
    (failed : session.flush medium store = (.error error, next, later)) :
    next = session ∧ session.IsCurrent settings folder later.disk ∧
        (∀ key, session.reading later.disk key = session.reading store.disk key) ∨
      (∃ cause, error = .overflow cause) ∧ IsExhausted settings.dataDir later.disk := by
  rcases flush_eq_error failed with ⟨rfl, rfl | ⟨plan, cause, full, planned, written⟩⟩ |
    ⟨plan, reader, cause, planned, written, counted, overflow⟩
  · exact .inl ⟨rfl, current, fun _ => rfl⟩
  · obtain ⟨still, resides, vacant⟩ := current.ready.resides planned
    obtain ⟨-, -, directory, own⟩ := flushPlan_eq_ok planned
    obtain ⟨spares, empty⟩ :=
      Memtable.spares_of_flush_error full still vacant resides written
    have bare := vacant folder resides
    have spared : Session.Spared _ folder store.disk plan.descriptor later.disk :=
      ⟨directory, own, bare, spares⟩
    have stays : plan.descriptor.ResidesIn later.disk folder :=
      resides.of_isOpen fun _ => spares.isOpen bare
    exact .inl ⟨rfl, spared.unnoticed current (empty folder stays)⟩
  · obtain ⟨still, resides, vacant⟩ := current.ready.resides planned
    obtain ⟨-, rfl, directory, own⟩ := flushPlan_eq_ok planned
    have bare := vacant folder resides
    rw [← still] at vacant resides
    have loaded := Memtable.load_of_flush fits.keeps vacant written
    have spares := Memtable.spares_of_flush vacant resides written
    rw [still] at spares
    have spared : session.Spared folder store.disk plan.descriptor later.disk :=
      ⟨directory, own, bare, spares⟩
    have located := spared.located current
    rw [current.same] at directory
    rw [← directory] at located ⊢
    rw [← own] at counted
    exact .inr ⟨⟨cause, overflow⟩, isExhausted_of_load loaded located counted⟩

/-- All flushes among the actions fit when their turn comes, whether those before succeed or fail. -/
def AllFit (session : Session) (store : Store) : List Action → Prop
  | [] => True
  | action :: rest =>
      (∀ medium, action = .flush medium → session.FlushFits medium) ∧
        ∀ next later, session.undergo store action = (.ok next, later) → next.AllFit later rest

/-- A session goes on behind a flush that succeeds, or that fails without an overflow. -/
theorem undergo_flush_eq_ok (underwent : session.undergo store (.flush medium) = (.ok next, later)) :
    (∃ summary, session.flush medium store = (.ok summary, next, later)) ∨
      ∃ error, (∀ cause, error ≠ .overflow cause) ∧
        session.flush medium store = (.error error, next, later) := by
  unfold Session.undergo at underwent
  dsimp only at underwent
  cases flushed : session.flush medium store with
  | mk result after =>
  obtain ⟨middle, between⟩ := after
  rw [flushed] at underwent
  cases result with
  | ok summary =>
      cases underwent
      exact .inl ⟨summary, rfl⟩
  | error error =>
      refine .inr ⟨error, ?_, ?_⟩
      · rintro cause rfl
        cases underwent
      · cases error <;> cases underwent <;> rfl

/-- An action only adds its own, and a flush that fails adds nothing. -/
theorem Took.undergo (current : session.IsCurrent settings folder store.disk) {action : Action}
    (fits : ∀ medium, action = .flush medium → session.FlushFits medium)
    (underwent : session.undergo store action = (.ok next, later)) :
    Took settings folder session store.disk [action] next later.disk := by
  cases action with
  | flush medium =>
      rcases undergo_flush_eq_ok underwent with ⟨summary, flushed⟩ | ⟨error, counted, failed⟩
      · refine Took.perform current fits ?_
        rw [Session.perform, flushed]
      · rcases current.flush_error (fits medium rfl) failed with ⟨rfl, current', reading⟩ |
          ⟨⟨cause, overflow⟩, -⟩
        · refine ⟨current', rfl, fun key => ?_, fun key => by simp [Action.key?]⟩
          exact (reading key).trans (mul_one _).symm
        · exact absurd overflow (counted cause)
  | _ =>
      cases underwent
      exact Took.perform current (fun _ flushes => by cases flushes) rfl

/-- A session on a folder takes all actions as they come, also if flushes among them fail. -/
theorem Took.undergoAll (current : session.IsCurrent settings folder store.disk)
    {actions : List Action} (fit : session.AllFit store actions)
    (underwent : session.undergoAll store actions = (.ok last, later)) :
    Took settings folder session store.disk actions last later.disk := by
  induction actions generalizing session store with
  | nil =>
      cases underwent
      exact .nil current
  | cons action rest ih =>
      rw [Session.undergoAll] at underwent
      split at underwent
      · cases underwent
      · rename_i middle between first
        have step := Took.undergo current fit.1 first
        exact step.cons (ih step.current (fit.2 middle between first) underwent)

/-- Actions among which no flush fails are taken alike whether or not one could fail. -/
theorem undergoAll_of_performAll {actions : List Action}
    (performed : session.performAll store actions = .ok (last, later)) :
    session.undergoAll store actions = (.ok last, later) := by
  induction actions generalizing session store with
  | nil =>
      cases performed
      rfl
  | cons action rest ih =>
      obtain ⟨⟨middle, between⟩, first, further⟩ := Except.bind_eq_ok_iff.1 performed
      have step : session.undergo store action = (.ok middle, between) := by
        cases action with
        | flush medium =>
            unfold Session.perform at first
            dsimp only at first
            split at first
            · cases first
            · rename_i summary after ended flushed
              cases first
              rw [Session.undergo, flushed]
        | _ =>
            cases first
            rfl
      rw [Session.undergoAll, step]
      exact ih further

/-- However a session ends, it was the one on the folder until then, or the folder is exhausted. -/
theorem Took.ended (current : session.IsCurrent settings folder store.disk) {actions : List Action}
    (fit : session.AllFit store actions) {outcome : Except Overflow Session}
    (underwent : session.undergoAll store actions = (outcome, later)) :
    IsExhausted settings.dataDir later.disk ∨
      ∃ front last, Took settings folder session store.disk front last later.disk := by
  induction actions generalizing session store with
  | nil =>
      cases underwent
      exact .inr ⟨[], session, .nil current⟩
  | cons action rest ih =>
      rw [Session.undergoAll] at underwent
      split at underwent
      · rename_i cause after first
        cases underwent
        cases action with
        | flush medium =>
            unfold Session.undergo at first
            dsimp only at first
            split at first
            · rename_i cause middle after flushed
              cases first
              rcases current.flush_error (fit.1 medium rfl) flushed with ⟨rfl, current', reading⟩ |
                ⟨-, exhausted⟩
              · refine .inr ⟨[], _, current', rfl, fun key => ?_, fun key => by simp⟩
                exact (reading key).trans (mul_one _).symm
              · exact .inl exhausted
            · cases first
        | _ => cases first
      · rename_i middle between first
        have step := Took.undergo current fit.1 first
        rcases ih step.current (fit.2 middle between first) underwent with exhausted |
          ⟨front, last, others⟩
        · exact .inl exhausted
        · exact .inr ⟨action :: front, last, step.cons others⟩

end Session

end SortedTable

import SortedTable.Proofs.Filter.Handles

namespace SortedTable

/-- A handle on the region of a filter, or the closed one that is left of it. -/
def Bloom.handle (bloom : Bloom) (region : Option Nat) : Handle :=
  .bloom bloom.hashCount bloom.hashing region

namespace Holding

variable {holding : Holding} {place region : Nat} {handle : Handle} {bloom : Bloom}

/-- A closed handle can only be closed and dropped again, which changes nothing for others. -/
structure IsSpent (holding : Holding) (place : Nat) (handle : Handle) : Prop where
  uncounted : holding.pool.refCount handle = 0
  unreadable : holding.pool.filter handle = .error .closed
  refuses : ∀ use, use ≠ .close → use ≠ .drop →
    holding.perform (.use place use) = (some (.error .closed), holding)
  closes : holding.perform (.use place .close) = (some (.ok .done), holding)
  drops : holding.perform (.use place .drop) =
    (some (.ok .done), { holding with handles := holding.handles.set place none })
  stays : ∀ actions, (holding.performAll actions).handle? place = some handle ∨
    (holding.performAll actions).handle? place = none

/-- The handle of a place gave up its region, which others may still hold. -/
structure GivesUp (holding : Holding) (place region : Nat) (bits : Bits) (left : Option Handle)
    (next : Holding) : Prop where
  handles : next.handles = holding.handles.set place left
  counts : next.openCount region + 1 = holding.openCount region
  region : next.regionAt region =
    if holding.openCount region = 1 then none else some ⟨bits, holding.openCount region - 1⟩

/-- An open handle counts those on its region, shows one filter with them, and clears it only alone. -/
structure IsOpen (holding : Holding) (place region : Nat) (bloom : Bloom) : Prop where
  counts : holding.pool.refCount (bloom.handle (some region)) = holding.openCount region
  shows : ∀ other held, holding.handle? other = some held → held.region? = some region →
    holding.pool.filter held = .ok (.bloom bloom)
  answers : ∀ question, holding.perform (.use place (.ask question)) =
    (some (.ok (.answered ((Filter.bloom bloom).answer question))), holding)
  shares : ∃ next, holding.perform (.use place .share) =
      (some (.ok (.shared holding.handles.length)), next) ∧
    next.handles = holding.handles ++ [some (bloom.handle (some region))] ∧
    next.regionAt region = some ⟨bloom.bits, holding.openCount region + 1⟩
  adds : ∀ hash, ∃ next, holding.perform (.use place (.add hash)) = (some (.ok .done), next) ∧
    next.handles = holding.handles ∧
    next.regionAt region = some ⟨(bloom.add hash).bits, holding.openCount region⟩ ∧
    ∀ other held, holding.handle? other = some held → held.region? = some region →
      next.pool.filter held = .ok (.bloom (bloom.add hash)) ∧
      next.perform (.use other (.ask (.isPresent hash))) =
        (some (.ok (.answered (.present true))), next)
  clears : holding.openCount region = 1 → ∃ next cleared,
    holding.perform (.use place .clear) = (some (.ok .done), next) ∧
    next.handles = holding.handles ∧ next.regionAt region = some ⟨cleared, 1⟩ ∧
    cleared.words = Array.replicate bloom.bits.words.size 0
  keeps : holding.openCount region ≠ 1 → holding.perform (.use place .clear) =
    (some (.error (.shared (holding.openCount region))), holding)
  closes : ∃ next, holding.perform (.use place .close) = (some (.ok .done), next) ∧
    holding.GivesUp place region bloom.bits (some (bloom.handle none)) next
  drops : ∃ next, holding.perform (.use place .drop) = (some (.ok .done), next) ∧
    holding.GivesUp place region bloom.bits none next

/-- A filter was adopted with a last handle of its own, alone on a region that was not there. -/
structure Adopts (holding : Holding) (bloom : Bloom) (region : Nat) (next : Holding) : Prop where
  handles : next.handles = holding.handles ++ [some (bloom.handle (some region))]
  fresh : holding.regionAt region = none
  shows : next.regionAt region = some ⟨bloom.bits, 1⟩
  alone : next.openCount region = 1
  others : ∀ other, other ≠ region → next.regionAt other = holding.regionAt other
  opened : next.IsOpen holding.handles.length region bloom

theorem perform_of_ok (found : holding.handle? place = some handle) {use : Use} {reply : Reply}
    {next : Holding} (used : holding.useHandle place handle use = .ok (reply, next)) :
    holding.perform (.use place use) = (some (.ok reply), next) := by
  simp only [perform, found, used]

theorem perform_of_error (found : holding.handle? place = some handle) {use : Use}
    {fault : HandleFault} (used : holding.useHandle place handle use = .error fault) :
    holding.perform (.use place use) = (some (.error fault), holding) := by
  simp only [perform, found, used]

/-- A question is answered by the filter that the handle shows. -/
theorem perform_ask (found : holding.handle? place = some handle) {filter : Filter}
    (shown : holding.pool.filter handle = .ok filter) (question : Question) :
    holding.perform (.use place (.ask question)) =
      (some (.ok (.answered (filter.answer question))), holding) := by
  apply perform_of_ok found
  rw [Holding.useHandle, shown]
  rfl

theorem regionAt_change (pool : Pool) (handles handles' : List (Option Handle))
    (update : Region → Option Region) :
    (Holding.mk (pool.change region update) handles).regionAt region =
      ((Holding.mk pool handles').regionAt region).bind update := by
  rw [regionAt, Pool.region?_change, if_pos rfl]
  rfl

theorem filter_handle {pool : Pool} {held : Region} (there : pool.region? (some region) = some held) :
    pool.filter (bloom.handle (some region)) = .ok (.bloom { bloom with bits := held.bits }) := by
  simp only [Pool.filter, Bloom.handle, there]

/-- A handle that is closed or dropped gives up its region. -/
theorem givesUp_release (found : holding.handle? place = some (bloom.handle (some region)))
    (there : holding.regionAt region = some ⟨bloom.bits, holding.openCount region⟩)
    {left : Option Handle} (silent : left.bind Handle.region? = none) :
    holding.GivesUp place region bloom.bits left
      ⟨holding.pool.release region, holding.handles.set place left⟩ where
  handles := rfl
  counts := by
    have positive := openCount_pos found rfl
    have opened : (bloom.handle (some region)).region? = some region := rfl
    simp only [openCount_set found, opened, silent, if_pos, reduceCtorEq, if_false]
    omega
  region := by
    have positive := openCount_pos found rfl
    rw [Pool.release, regionAt_change _ _ holding.handles, show Holding.regionAt _ _ = _ from there,
      Option.bind_some]
    by_cases last : holding.openCount region = 1
    · simp [last]
    · simp [last, show ¬holding.openCount region ≤ 1 by omega]

theorem IsCounted.isOpen (counted : holding.IsCounted)
    (found : holding.handle? place = some (bloom.handle (some region)))
    (there : holding.regionAt region = some ⟨bloom.bits, holding.openCount region⟩) :
    holding.IsOpen place region bloom := by
  have same {other : Nat} {held : Handle} (found' : holding.handle? other = some held)
      (opened : held.region? = some region) : held = bloom.handle (some region) :=
    counted.alike (mem_of_handle? found') (mem_of_handle? found) opened rfl
  constructor
  case counts =>
    change (Option.elim (holding.regionAt region) 0 Region.handles) = _
    rw [there]
    rfl
  case shows =>
    intro other held found' opened
    rw [same found' opened]
    exact filter_handle there
  case answers =>
    exact perform_ask found (filter_handle there)
  case shares =>
    have used : holding.useHandle place (bloom.handle (some region)) .share =
      .ok (.shared holding.handles.length, _) := rfl
    refine ⟨_, perform_of_ok found used, rfl, ?_⟩
    rw [regionAt_change _ _ holding.handles, show Holding.regionAt _ _ = _ from there]
    rfl
  case adds =>
    intro hash
    let next : Holding := ⟨holding.pool.change region fun held =>
      some { held with bits := Bloom.setFrom hash bloom.hashCount.toNat 0 held.bits }, holding.handles⟩
    have used : holding.useHandle place (bloom.handle (some region)) (.add hash) =
      .ok (.done, next) := rfl
    have changed : next.regionAt region = some ⟨(bloom.add hash).bits, holding.openCount region⟩ := by
      rw [regionAt_change _ _ holding.handles, show Holding.regionAt _ _ = _ from there]
      rfl
    have shown : next.pool.filter (bloom.handle (some region)) = .ok (.bloom (bloom.add hash)) :=
      filter_handle changed
    have present : (bloom.add hash).isPresent hash = true := bloom.isPresent_add_self hash
    refine ⟨next, perform_of_ok found used, rfl, changed, fun other held found' opened => ?_⟩
    cases same found' opened
    have found' : next.handle? other = some (bloom.handle (some region)) := found'
    refine ⟨shown, (perform_ask found' shown _).trans ?_⟩
    rw [← present]
    rfl
  case clears =>
    intro alone
    have used : holding.useHandle place (bloom.handle (some region)) .clear =
        .ok (.done, ⟨holding.pool.change region fun held =>
          some { held with bits := held.bits.cleared }, holding.handles⟩) := by
      rw [Holding.useHandle, Bloom.handle, Pool.clear_of_region? there, if_pos alone]
      rfl
    refine ⟨_, bloom.bits.cleared, perform_of_ok found used, rfl, ?_, rfl⟩
    rw [regionAt_change _ _ holding.handles, show Holding.regionAt _ _ = _ from there, alone]
    rfl
  case keeps =>
    intro several
    apply perform_of_error found
    rw [Holding.useHandle, Bloom.handle, Pool.clear_of_region? there, if_neg several]
    rfl
  case closes => exact ⟨_, perform_of_ok found rfl, givesUp_release found there rfl⟩
  case drops => exact ⟨_, perform_of_ok found rfl, givesUp_release found there rfl⟩

/-- A Bloom filter is adopted with an open handle of its own. -/
theorem IsCounted.adopts (counted : holding.IsCounted) (bloom : Bloom) :
    holding.Adopts bloom holding.pool.regions.size (holding.after (.adopt (.bloom bloom))) := by
  have fresh : holding.regionAt holding.pool.regions.size = none :=
    holding.pool.region?_of_size_le (Nat.le_refl _)
  have regions (other : Nat) : (holding.after (.adopt (.bloom bloom))).regionAt other =
      if other = holding.pool.regions.size then some ⟨bloom.bits, 1⟩ else holding.regionAt other :=
    holding.pool.region?_adopt bloom other
  have alone : (holding.after (.adopt (.bloom bloom))).openCount holding.pool.regions.size = 1 := by
    change (Holding.mk _ (holding.handles ++ [some (bloom.handle (some _))])).openCount _ = 1
    rw [openCount_append, counted.regionAt_eq_none_iff.1 fresh]
    exact (Nat.zero_add _).trans (if_pos rfl)
  have shown := regions holding.pool.regions.size
  rw [if_pos rfl] at shown
  refine ⟨rfl, fresh, shown, alone, fun other apart => ?_, ?_⟩
  · rw [regions, if_neg apart]
  · apply (counted.after (.adopt (.bloom bloom))).isOpen
    · apply handle?_eq_some.2
      exact List.getElem?_concat_length
    · rw [alone]
      exact shown

/-- A use changes at most the region of its handle. -/
theorem pool_useHandle {use : Use} {reply : Reply} {next : Holding}
    (used : holding.useHandle place handle use = .ok (reply, next)) :
    next.pool = holding.pool ∨
      ∃ region update, handle.region? = some region ∧ next.pool = holding.pool.change region update := by
  cases handle with
  | alwaysPresent => cases use <;> cases used <;> exact .inl rfl
  | bloom hashCount hashing opened =>
      cases opened with
      | none => cases use <;> cases used <;> exact .inl rfl
      | some region =>
          cases use with
          | ask question =>
              obtain ⟨filter, -, same⟩ := Except.bind_eq_ok_iff.1 used
              cases same
              exact .inl rfl
          | clear =>
              obtain ⟨pool, cleared, same⟩ := Except.bind_eq_ok_iff.1 used
              cases same
              simp only [Pool.clear] at cleared
              split at cleared
              · split at cleared <;> cases cleared
                rename_i index _ named _ _
                exact .inr ⟨index, _, named, rfl⟩
              · cases cleared
          | share | add | close | drop =>
              cases used
              exact .inr ⟨region, _, rfl, rfl⟩

/-- A use adds a handle, or replaces the one that is closed or dropped. -/
theorem handles_useHandle {use : Use} {reply : Reply} {next : Holding}
    (used : holding.useHandle place handle use = .ok (reply, next)) :
    (∃ added, next.handles = holding.handles ++ added) ∨
      ∃ held, next.handles = holding.handles.set place held := by
  cases use with
  | share =>
      obtain ⟨⟨copy, pool⟩, -, same⟩ := Except.bind_eq_ok_iff.1 used
      cases same
      exact .inl ⟨[some copy], rfl⟩
  | add | ask | clear =>
      obtain ⟨_, -, same⟩ := Except.bind_eq_ok_iff.1 used
      cases same
      exact .inl ⟨[], (List.append_nil _).symm⟩
  | close | drop =>
      cases used
      exact .inr ⟨_, rfl⟩

/-- An action on another handle leaves a handle as it is. -/
theorem handle?_after_of_ne {action : Action} (inside : place < holding.handles.length)
    (other : ∀ use, action ≠ .use place use) :
    (holding.after action).handle? place = holding.handle? place := by
  cases action with
  | adopt filter => exact handle?_append _ _ inside
  | use used use =>
      have apart : used ≠ place := by
        rintro rfl
        exact other use rfl
      obtain same | ⟨handle, reply, -, ran⟩ := holding.after_use used use
      · rw [same]
      · obtain ⟨added, handles⟩ | ⟨held, handles⟩ := handles_useHandle ran
        · simp [handle?, handles, List.getElem?_append_left inside]
        · simp [handle?, handles, List.getElem?_set_ne apart]

/-- No place of a handle is ever lost. -/
theorem length_le_after (action : Action) :
    holding.handles.length ≤ (holding.after action).handles.length := by
  cases action with
  | adopt filter => simp [after, perform]
  | use place use =>
      obtain same | ⟨handle, reply, -, ran⟩ := holding.after_use place use
      · rw [same]
      · obtain ⟨added, handles⟩ | ⟨held, handles⟩ := handles_useHandle ran
        · simp [handles]
        · simp [handles]

/-- No place of a region is ever used again. -/
theorem size_le_after (action : Action) :
    holding.pool.regions.size ≤ (holding.after action).pool.regions.size := by
  cases action with
  | adopt filter =>
      cases filter with
      | alwaysPresent => exact Nat.le_refl _
      | bloom bloom => simp [after, perform, Pool.adopt]
  | use place use =>
      obtain same | ⟨handle, reply, -, ran⟩ := holding.after_use place use
      · rw [same]
      · obtain pool | ⟨changed, update, -, pool⟩ := pool_useHandle ran
        · simp [pool]
        · simp [pool]

/-- Adopting a filter leaves the regions that were made before. -/
theorem regionAt_adopt (filter : Filter) (made : region < holding.pool.regions.size) :
    (holding.after (.adopt filter)).regionAt region = holding.regionAt region := by
  cases filter with
  | alwaysPresent => rfl
  | bloom bloom =>
      change (holding.pool.adopt (.bloom bloom)).2.region? (some region) = _
      rw [Pool.region?_adopt, if_neg (Nat.ne_of_lt made)]
      rfl

/-- A use of a handle that is not on a region leaves the region as it is. -/
theorem regionAt_use {use : Use}
    (apart : (holding.handle? place).bind Handle.region? ≠ some region) :
    (holding.after (.use place use)).regionAt region = holding.regionAt region := by
  obtain same | ⟨handle, reply, found, ran⟩ := holding.after_use place use
  · rw [same]
  · rw [found, Option.bind_some] at apart
    obtain pool | ⟨changed, update, named, pool⟩ := pool_useHandle ran
    · rw [regionAt, pool]
      rfl
    · have other : changed ≠ region := by
        rintro rfl
        exact apart named
      rw [regionAt, pool, Pool.region?_change, if_neg other]
      rfl

/-- A closed handle can be closed again and dropped, and nothing else. -/
theorem perform_closed (found : holding.handle? place = some (bloom.handle none)) (use : Use) :
    holding.perform (.use place use) =
      match use with
      | .close => (some (.ok .done), holding)
      | .drop => (some (.ok .done), { holding with handles := holding.handles.set place none })
      | _ => (some (.error .closed), holding) := by
  have kept : holding.handles.set place (some (bloom.handle none)) = holding.handles := by
    have there := (List.getElem?_eq_some_iff.1 (handle?_eq_some.1 found)).2
    rw [← there]
    exact List.set_getElem_self _
  cases use with
  | close =>
      have closed : holding.useHandle place (bloom.handle none) .close =
        .ok (.done, ⟨holding.pool, holding.handles.set place (some (bloom.handle none))⟩) := rfl
      rw [perform_of_ok found closed, kept]
  | drop => exact perform_of_ok found rfl
  | share | add | ask | clear => exact perform_of_error found rfl

/-- The handle of a place was closed or dropped. -/
def IsGone (holding : Holding) (place : Nat) (handle : Handle) : Prop :=
  place < holding.handles.length ∧
    (holding.handle? place = some handle ∨ holding.handle? place = none)

/-- What is closed or dropped stays so. -/
theorem isGone_after (gone : holding.IsGone place (bloom.handle none)) (action : Action) :
    (holding.after action).IsGone place (bloom.handle none) := by
  constructor
  · exact Nat.lt_of_lt_of_le gone.1 (length_le_after action)
  · by_cases same : ∃ use, action = .use place use
    · obtain ⟨use, rfl⟩ := same
      obtain closed | dropped := gone.2
      · rw [after, perform_closed closed]
        cases use with
        | drop =>
            apply Or.inr
            simp [handle?, gone.1]
        | share | add | ask | clear | close => exact .inl closed
      · simp [after, perform, dropped]
    · rw [handle?_after_of_ne gone.1 fun use used => same ⟨use, used⟩]
      exact gone.2

theorem isGone_performAll (gone : holding.IsGone place (bloom.handle none)) (actions : List Action) :
    (holding.performAll actions).IsGone place (bloom.handle none) := by
  induction actions generalizing holding with
  | nil => exact gone
  | cons action rest rec => exact rec (isGone_after gone action)

theorem isSpent_of_closed (found : holding.handle? place = some (bloom.handle none)) :
    holding.IsSpent place (bloom.handle none) where
  uncounted := rfl
  unreadable := rfl
  refuses use opened kept := by
    rw [perform_closed found]
    cases use with
    | close => exact absurd rfl opened
    | drop => exact absurd rfl kept
    | share | add | ask | clear => rfl
  closes := perform_closed found .close
  drops := perform_closed found .drop
  stays actions := (isGone_performAll ⟨lt_of_handle? found, .inl found⟩ actions).2

/-- An action closes or drops a handle on a region. -/
def GivesBack (holding : Holding) (action : Action) (region : Nat) : Prop :=
  ∃ place handle, holding.handle? place = some handle ∧ handle.region? = some region ∧
    (action = .use place .close ∨ action = .use place .drop)

theorem IsCounted.exists_isOpen (counted : holding.IsCounted)
    (found : holding.handle? place = some handle) (opened : handle.region? = some region) :
    ∃ bloom : Bloom, handle = bloom.handle (some region) ∧ holding.IsOpen place region bloom := by
  obtain ⟨bits, there⟩ := counted.regionAt_of_open found opened
  cases handle with
  | alwaysPresent => cases opened
  | bloom hashCount hashing named =>
      cases opened
      exact ⟨⟨hashCount, bits, hashing⟩, rfl, counted.isOpen found there⟩

theorem IsOpen.givesUp (opened : holding.IsOpen place region bloom) {use : Use}
    (given : use = .close ∨ use = .drop) :
    ∃ left, holding.GivesUp place region bloom.bits left (holding.after (.use place use)) := by
  obtain rfl | rfl := given
  · obtain ⟨next, done, gives⟩ := opened.closes
    rw [after, done]
    exact ⟨_, gives⟩
  · obtain ⟨next, done, gives⟩ := opened.drops
    rw [after, done]
    exact ⟨_, gives⟩

/-- A use that does not give up the region leaves it there. -/
theorem IsOpen.regionAt_after_ne_none (opened : holding.IsOpen place region bloom)
    (there : holding.regionAt region ≠ none) {use : Use} (kept : use ≠ .close)
    (kept' : use ≠ .drop) : (holding.after (.use place use)).regionAt region ≠ none := by
  cases use with
  | share =>
      obtain ⟨next, done, -, region⟩ := opened.shares
      simp [after, done, region]
  | add hash =>
      obtain ⟨next, done, -, region, -⟩ := opened.adds hash
      simp [after, done, region]
  | ask question => simpa [after, opened.answers] using there
  | clear =>
      by_cases alone : holding.openCount region = 1
      · obtain ⟨next, cleared, done, -, region, -⟩ := opened.clears alone
        simp [after, done, region]
      · simpa [after, opened.keeps alone] using there
  | close => exact absurd rfl kept
  | drop => exact absurd rfl kept'

/-- A region is released when the last open handle on it is closed or dropped, and by nothing else. -/
theorem IsCounted.regionAt_after_eq_none_iff (counted : holding.IsCounted) (action : Action)
    (there : holding.regionAt region ≠ none) :
    (holding.after action).regionAt region = none ↔
      holding.openCount region = 1 ∧ holding.GivesBack action region := by
  have made : region < holding.pool.regions.size := by
    by_contra outside
    exact there (holding.pool.region?_of_size_le (Nat.not_lt.1 outside))
  constructor
  · intro released
    cases action with
    | adopt filter =>
        rw [regionAt_adopt filter made] at released
        exact absurd released there
    | use place use =>
        by_cases on : (holding.handle? place).bind Handle.region? = some region
        · obtain ⟨handle, found, named⟩ := Option.bind_eq_some_iff.1 on
          obtain ⟨bloom, rfl, opened⟩ := counted.exists_isOpen found named
          have given : use = .close ∨ use = .drop := by
            by_contra kept
            rw [not_or] at kept
            exact opened.regionAt_after_ne_none there kept.1 kept.2 released
          obtain ⟨left, gives⟩ := opened.givesUp given
          have last : holding.openCount region = 1 := by
            by_contra several
            have kept := gives.region
            rw [released, if_neg several] at kept
            cases kept
          exact ⟨last, place, _, found, named, given.imp (congrArg _) (congrArg _)⟩
        · rw [regionAt_use on] at released
          exact absurd released there
  · rintro ⟨last, place, handle, found, named, given⟩
    obtain ⟨bloom, rfl, opened⟩ := counted.exists_isOpen found named
    have released {use : Use} (given : use = .close ∨ use = .drop) :
        (holding.after (.use place use)).regionAt region = none := by
      obtain ⟨left, gives⟩ := opened.givesUp given
      rw [gives.region, if_pos last]
    obtain rfl | rfl := given
    · exact released (.inl rfl)
    · exact released (.inr rfl)

/-- A released region is never made again. -/
theorem IsCounted.regionAt_performAll (counted : holding.IsCounted)
    (made : region < holding.pool.regions.size) (released : holding.regionAt region = none)
    (actions : List Action) : (holding.performAll actions).regionAt region = none := by
  induction actions generalizing holding with
  | nil => exact released
  | cons action rest rec =>
      apply rec (counted.after action) (Nat.lt_of_lt_of_le made (size_le_after action))
      cases action with
      | adopt filter => rw [regionAt_adopt filter made, released]
      | use place use =>
          rw [regionAt_use, released]
          intro opened
          obtain ⟨handle, found, named⟩ := Option.bind_eq_some_iff.1 opened
          have positive := openCount_pos found named
          have none := counted.regionAt_eq_none_iff.1 released
          omega

/-- The life of all handles: what each of them can do, what it leaves alone, and when regions go. -/
structure KeepsRegions (holding : Holding) : Prop where
  adopts : ∀ bloom, ∃ region next, holding.perform (.adopt (.bloom bloom)) =
    (some (.ok (.shared holding.handles.length)), next) ∧ holding.Adopts bloom region next
  closed : ∀ place hashCount hashing, holding.handle? place = some (.bloom hashCount hashing none) →
    holding.IsSpent place (.bloom hashCount hashing none)
  opened : ∀ place hashCount hashing region,
    holding.handle? place = some (.bloom hashCount hashing (some region)) →
      ∃ bits, holding.IsOpen place region ⟨hashCount, bits, hashing⟩
  others : ∀ place action, place < holding.handles.length → (∀ use, action ≠ .use place use) →
    (holding.after action).handle? place = holding.handle? place
  apart : ∀ place use region, (holding.handle? place).bind Handle.region? ≠ some region →
    (holding.after (.use place use)).regionAt region = holding.regionAt region
  held : ∀ region, holding.regionAt region = none ↔ holding.openCount region = 0
  releases : ∀ action region, holding.regionAt region ≠ none →
    ((holding.after action).regionAt region = none ↔
      holding.openCount region = 1 ∧ holding.GivesBack action region)
  released : ∀ region, region < holding.pool.regions.size → holding.regionAt region = none →
    ∀ actions, (holding.performAll actions).regionAt region = none

/-- Handles keep their regions whatever is done with them, in any order. -/
theorem keepsRegions_performAll (actions : List Action) : (empty.performAll actions).KeepsRegions := by
  have counted := isCounted_empty.performAll actions
  generalize empty.performAll actions = holding at counted ⊢
  constructor
  case adopts => exact fun bloom => ⟨_, _, rfl, counted.adopts bloom⟩
  case closed =>
    intro place hashCount hashing found
    let bloom : Bloom := ⟨hashCount, default, hashing⟩
    have closed : holding.handle? place = some (bloom.handle none) := found
    exact isSpent_of_closed closed
  case opened =>
    intro place hashCount hashing region found
    obtain ⟨bits, there⟩ := counted.regionAt_of_open found rfl
    let bloom : Bloom := ⟨hashCount, bits, hashing⟩
    have opened : holding.handle? place = some (bloom.handle (some region)) := found
    exact ⟨bits, counted.isOpen opened there⟩
  case others => exact fun place action inside other => handle?_after_of_ne inside other
  case apart => exact fun place use region off => regionAt_use off
  case held => exact fun region => counted.regionAt_eq_none_iff
  case releases => exact fun action region => counted.regionAt_after_eq_none_iff action
  case released => exact fun region => counted.regionAt_performAll

/-- A filter of which the copy is filled and the first handle closed. -/
def handedOver : List Action :=
  [.adopt (.bloom default), .use 0 .share, .use 1 (.add ⟨5, 64⟩), .use 0 .close]

/-- The first handle is spent, and its copy shows what was added and takes the region with it. -/
theorem keepsRegions_performAll_handedOver :
    let held := empty.performAll handedOver
    held.IsSpent 0 ((default : Bloom).handle none) ∧
    (∃ bits, held.IsOpen 1 0 ⟨1, bits, by decide⟩) ∧
    held.openCount 0 = 1 ∧
    held.perform (.use 1 (.ask (.isPresent ⟨5, 64⟩))) =
      (some (.ok (.answered (.present true))), held) ∧
    (held.after (.use 1 .drop)).regionAt 0 = none ∧
    ∃ next, held.perform (.adopt (.bloom default)) = (some (.ok (.shared 2)), next) := by
  have keeps := keepsRegions_performAll handedOver
  have there : (empty.performAll handedOver).regionAt 0 ≠ none := by decide +kernel
  have alone : (empty.performAll handedOver).openCount 0 = 1 := by decide +kernel
  obtain ⟨bits, opened⟩ := keeps.opened 1 1 (by decide) 0 rfl
  obtain ⟨region, next, adopted, -⟩ := keeps.adopts default
  have released := (keeps.releases (.use 1 .drop) 0 there).2 ⟨alone, 1, _, rfl, rfl, .inr rfl⟩
  exact ⟨keeps.closed 0 1 (by decide) rfl, ⟨bits, opened⟩, alone, rfl, released, next, adopted⟩

end Holding

end SortedTable

import Mathlib.Data.List.Basic
import SortedTable.Filter.Holding
import SortedTable.Proofs.Filter.Bloom

namespace SortedTable

namespace Pool

variable (pool : Pool)

theorem region?_change (index other : Nat) (update : Region → Option Region) :
    (pool.change index update).region? (some other) =
      if index = other then (pool.region? (some other)).bind update else pool.region? (some other) := by
  simp only [region?, change, Option.bind_some, Array.getD_eq_getD_getElem?, Array.getElem?_modify]
  split <;> cases pool.regions[other]? <;> simp

@[simp] theorem size_change (index : Nat) (update : Region → Option Region) :
    (pool.change index update).regions.size = pool.regions.size := by
  simp [change]

/-- A region that was never made is not there. -/
theorem region?_of_size_le {index : Nat} (outside : pool.regions.size ≤ index) :
    pool.region? (some index) = none := by
  simp [region?, outside]

theorem region?_adopt (bloom : Bloom) (other : Nat) :
    (pool.adopt (.bloom bloom)).2.region? (some other) =
      if other = pool.regions.size then some ⟨bloom.bits, 1⟩ else pool.region? (some other) := by
  simp only [region?, adopt, Option.bind_some, Array.getD_eq_getD_getElem?, Array.getElem?_push]
  split <;> simp

theorem clear_of_region? {pool : Pool} {index : Nat} {held : Region} {hashCount : UInt32}
    {hashing : 0 < hashCount} (there : pool.region? (some index) = some held) :
    pool.clear (.bloom hashCount hashing (some index)) =
      if held.handles = 1 then
        .ok (pool.change index fun held => some { held with bits := held.bits.cleared })
      else .error (.shared held.handles) := by
  simp only [clear, there]

end Pool

namespace Holding

variable {holding : Holding} {place region : Nat} {handle : Handle}

theorem handle?_eq_some : holding.handle? place = some handle ↔
    holding.handles[place]? = some (some handle) := by
  simp [handle?, Option.join_eq_some_iff]

theorem mem_of_handle? (found : holding.handle? place = some handle) :
    some handle ∈ holding.handles :=
  List.mem_of_getElem? (handle?_eq_some.1 found)

theorem lt_of_handle? (found : holding.handle? place = some handle) :
    place < holding.handles.length :=
  (List.getElem?_eq_some_iff.1 (handle?_eq_some.1 found)).1

theorem handle?_append (pool : Pool) (held : Option Handle) {other : Nat}
    (inside : other < holding.handles.length) :
    (Holding.mk pool (holding.handles ++ [held])).handle? other = holding.handle? other := by
  simp [handle?, List.getElem?_append_left inside]

theorem openCount_append (pool : Pool) (held : Option Handle) (region : Nat) :
    (Holding.mk pool (holding.handles ++ [held])).openCount region =
      holding.openCount region + if held.bind Handle.region? = some region then 1 else 0 := by
  simp [openCount, List.countP_append, List.countP_singleton]

/-- A handle that takes the place of another is counted in its stead. -/
theorem openCount_set (found : holding.handle? place = some handle) (pool : Pool)
    (held : Option Handle) (region : Nat) :
    (Holding.mk pool (holding.handles.set place held)).openCount region =
      holding.openCount region - (if handle.region? = some region then 1 else 0) +
        if held.bind Handle.region? = some region then 1 else 0 := by
  have inside := lt_of_handle? found
  have same : holding.handles[place] = some handle := by
    have there := handle?_eq_some.1 found
    rwa [List.getElem?_eq_getElem inside, Option.some.injEq] at there
  simp [openCount, List.countP_set inside, same]

theorem openCount_pos (found : holding.handle? place = some handle)
    (opened : handle.region? = some region) : 0 < holding.openCount region := by
  rw [openCount, List.countP_pos_iff]
  exact ⟨some handle, mem_of_handle? found, by simp [opened]⟩

/-- An action on a place uses the handle there, or changes nothing. -/
theorem after_use (holding : Holding) (place : Nat) (use : Use) :
    holding.after (.use place use) = holding ∨
      ∃ handle reply, holding.handle? place = some handle ∧
        holding.useHandle place handle use = .ok (reply, holding.after (.use place use)) := by
  simp only [after, perform]
  split
  · exact .inl rfl
  · rename_i handle found
    split
    · rename_i reply next used
      exact .inr ⟨handle, reply, found, used⟩
    · exact .inl rfl

/-- Every region is held by its open handles, one or more, and handles on one region are the same. -/
structure IsCounted (holding : Holding) : Prop where
  counts : ∀ region, (holding.regionAt region).map Region.handles =
    if holding.openCount region = 0 then none else some (holding.openCount region)
  alike : ∀ {one other : Handle} {region : Nat}, some one ∈ holding.handles →
    some other ∈ holding.handles → one.region? = some region → other.region? = some region →
    one = other

theorem isCounted_empty : empty.IsCounted where
  counts region := by simp [empty, regionAt, Pool.empty, Pool.region?, openCount]
  alike member := by simp [empty] at member

namespace IsCounted

/-- A region is there as long as a handle on it is open. -/
theorem regionAt_eq_none_iff (counted : holding.IsCounted) :
    holding.regionAt region = none ↔ holding.openCount region = 0 := by
  have counts := counted.counts region
  split at counts
  · simp_all
  · rename_i held
    simp only [held, iff_false]
    intro absent
    simp [absent] at counts

/-- The region of an open handle is there and counts its handles. -/
theorem regionAt_of_open (counted : holding.IsCounted) (found : holding.handle? place = some handle)
    (opened : handle.region? = some region) :
    ∃ bits, holding.regionAt region = some ⟨bits, holding.openCount region⟩ := by
  have counts := counted.counts region
  rw [if_neg (Nat.ne_of_gt (openCount_pos found opened)), Option.map_eq_some_iff] at counts
  obtain ⟨⟨bits, handles⟩, there, rfl⟩ := counts
  exact ⟨bits, there⟩

/-- No handle is on a region that was never made. -/
theorem lt_of_open (counted : holding.IsCounted) (member : some handle ∈ holding.handles)
    (opened : handle.region? = some region) : region < holding.pool.regions.size := by
  obtain ⟨place, inside⟩ := List.mem_iff_getElem?.1 member
  obtain ⟨bits, there⟩ := counted.regionAt_of_open (handle?_eq_some.2 inside) opened
  by_contra outside
  rw [regionAt, holding.pool.region?_of_size_le (Nat.not_lt.1 outside)] at there
  cases there

/-- Regions and handles may change together, as long as the count follows. -/
theorem follow (counted : holding.IsCounted) {after : Holding}
    (known : ∀ held ∈ after.handles, held ∈ holding.handles ∨ held.bind Handle.region? = none)
    (counts : ∀ region, (after.regionAt region).map Region.handles =
      if after.openCount region = 0 then none else some (after.openCount region)) :
    after.IsCounted where
  counts := counts
  alike one other opened opened' := by
    have before {handle : Handle} {region : Nat} (member : some handle ∈ after.handles)
        (opened : handle.region? = some region) : some handle ∈ holding.handles := by
      apply (known _ member).resolve_right
      simp [opened]
    exact counted.alike (before one opened) (before other opened') opened opened'

/-- Handles may come and go as long as the open ones are the same in number. -/
theorem of_silent (counted : holding.IsCounted) {handles : List (Option Handle)}
    (known : ∀ held ∈ handles, held ∈ holding.handles ∨ held.bind Handle.region? = none)
    (same : ∀ region, (Holding.mk holding.pool handles).openCount region = holding.openCount region) :
    (Holding.mk holding.pool handles).IsCounted := by
  apply counted.follow known
  intro region
  rw [same]
  exact counted.counts region

/-- A region may change together with the handles on it. -/
theorem of_change (counted : holding.IsCounted) {handles : List (Option Handle)}
    {update : Region → Option Region}
    (known : ∀ held ∈ handles, held ∈ holding.handles ∨ held.bind Handle.region? = none)
    (apart : ∀ other, other ≠ region →
      (Holding.mk (holding.pool.change region update) handles).openCount other = holding.openCount other)
    (follows : ((holding.regionAt region).bind update).map Region.handles =
      if (Holding.mk (holding.pool.change region update) handles).openCount region = 0 then none
      else some ((Holding.mk (holding.pool.change region update) handles).openCount region)) :
    (Holding.mk (holding.pool.change region update) handles).IsCounted := by
  apply counted.follow known
  intro other
  rw [regionAt, Pool.region?_change]
  by_cases same : region = other
  · subst same
    rw [if_pos rfl]
    exact follows
  · rw [if_neg same, apart other (Ne.symm same)]
    exact counted.counts other

/-- The bits of a region may change without the handles on it. -/
theorem of_bits (counted : holding.IsCounted) (region : Nat) (update : Bits → Bits) :
    (Holding.mk (holding.pool.change region fun held => some { held with bits := update held.bits })
      holding.handles).IsCounted := by
  apply counted.of_change
  · simp +contextual
  · exact fun _ _ => rfl
  · apply Eq.trans _ (counted.counts region)
    cases holding.regionAt region <;> rfl

/-- A handle that gives up its region is no longer counted there. -/
theorem of_release (counted : holding.IsCounted) (found : holding.handle? place = some handle)
    (opened : handle.region? = some region) {held : Option Handle}
    (silent : held.bind Handle.region? = none) :
    (Holding.mk (holding.pool.release region) (holding.handles.set place held)).IsCounted := by
  obtain ⟨bits, there⟩ := counted.regionAt_of_open found opened
  have positive := openCount_pos found opened
  apply counted.of_change
  · intro other member
    apply (List.mem_or_eq_of_mem_set member).imp_right
    rintro rfl
    exact silent
  · intro other apart
    simp [openCount_set found, opened, silent, Ne.symm apart]
  · rw [openCount_set found, there, opened, silent]
    by_cases last : holding.openCount region ≤ 1
    · simp [last, show holding.openCount region - 1 = 0 by omega]
    · simp [last, show holding.openCount region - 1 ≠ 0 by omega]

/-- A filter is adopted with a handle of its own. -/
theorem adopt (counted : holding.IsCounted) (filter : Filter) :
    (holding.after (.adopt filter)).IsCounted := by
  cases filter with
  | alwaysPresent =>
      change (Holding.mk holding.pool (holding.handles ++ [some .alwaysPresent])).IsCounted
      apply counted.of_silent
      · simp +contextual [or_imp, Handle.region?]
      · simp [openCount_append, Handle.region?]
  | bloom bloom =>
      let fresh : Handle := .bloom bloom.hashCount bloom.hashing (some holding.pool.regions.size)
      have absent : holding.openCount holding.pool.regions.size = 0 :=
        counted.regionAt_eq_none_iff.1 (holding.pool.region?_of_size_le (Nat.le_refl _))
      constructor
      · intro region
        change (((holding.pool.adopt (.bloom bloom)).2.region? (some region)).map Region.handles) =
          if (Holding.mk _ (holding.handles ++ [some fresh])).openCount region = 0 then none
          else some ((Holding.mk _ (holding.handles ++ [some fresh])).openCount region)
        rw [Pool.region?_adopt, openCount_append]
        by_cases same : region = holding.pool.regions.size
        · subst same
          simp [fresh, absent, Handle.region?]
        · have other : holding.pool.regions.size ≠ region := Ne.symm same
          simpa [fresh, same, other, Handle.region?, regionAt] using counted.counts region
      · intro one other region member member' opened opened'
        have known {handle : Handle} (member : some handle ∈ holding.handles ++ [some fresh]) :
            some handle ∈ holding.handles ∨ handle = fresh := by
          simpa using member
        have apart {handle : Handle} (member : some handle ∈ holding.handles)
            (opened : handle.region? = some region) (fresh' : fresh.region? = some region) : False := by
          have lower := counted.lt_of_open member opened
          have same : holding.pool.regions.size = region := Option.some.inj fresh'
          omega
        obtain old | rfl := known member <;> obtain old' | rfl := known member'
        · exact counted.alike old old' opened opened'
        · exact (apart old opened opened').elim
        · exact (apart old' opened' opened).elim
        · rfl

/-- A use of a handle keeps the count. -/
theorem useHandle (counted : holding.IsCounted) (found : holding.handle? place = some handle)
    {use : Use} {reply : Reply} {next : Holding}
    (used : holding.useHandle place handle use = .ok (reply, next)) : next.IsCounted := by
  have given : ∀ other ∈ holding.handles ++ [some handle],
        other ∈ holding.handles ∨ other.bind Handle.region? = none := by
    simp +contextual [or_imp, mem_of_handle? found]
  -- A handle that is on no region comes and goes uncounted.
  have dropped {held : Option Handle} (closed : handle.region? = none)
      (silent : held.bind Handle.region? = none) :
      (Holding.mk holding.pool (holding.handles.set place held)).IsCounted := by
    apply counted.of_silent
    · intro other member
      apply (List.mem_or_eq_of_mem_set member).imp_right
      rintro rfl
      exact silent
    · simp [openCount_set found, closed, silent]
  cases handle with
  | alwaysPresent =>
      cases use with
      | share =>
          cases used
          apply counted.of_silent given
          simp [openCount_append, Handle.region?]
      | close | drop =>
          cases used
          exact dropped rfl rfl
      | add | ask | clear =>
          cases used
          exact counted
  | bloom hashCount hashing opened =>
      cases opened with
      | none =>
          cases use <;> cases used
          · exact dropped rfl rfl
          · exact dropped rfl rfl
      | some region =>
          obtain ⟨bits, there⟩ := counted.regionAt_of_open found rfl
          cases use with
          | share =>
              cases used
              apply counted.of_change given
              · intro other apart
                simp [openCount_append, Handle.region?, Ne.symm apart]
              · simp [openCount_append, Handle.region?, there]
          | add hash =>
              cases used
              exact counted.of_bits region _
          | ask question =>
              obtain ⟨filter, -, same⟩ := Except.bind_eq_ok_iff.1 used
              cases same
              exact counted
          | clear =>
              obtain ⟨pool, cleared, same⟩ := Except.bind_eq_ok_iff.1 used
              cases same
              rw [Pool.clear_of_region? there] at cleared
              split at cleared <;> cases cleared
              exact counted.of_bits region _
          | close | drop =>
              cases used
              exact counted.of_release found rfl rfl

/-- An action keeps the count. -/
theorem after (counted : holding.IsCounted) (action : Action) :
    (holding.after action).IsCounted := by
  cases action with
  | adopt filter => exact counted.adopt filter
  | use place use =>
      obtain same | ⟨handle, reply, found, used⟩ := holding.after_use place use
      · rwa [same]
      · exact counted.useHandle found used

/-- Actions in order keep the count. -/
theorem performAll (counted : holding.IsCounted) (actions : List Action) :
    (holding.performAll actions).IsCounted := by
  induction actions generalizing holding with
  | nil => exact counted
  | cons action rest rec => exact rec (counted.after action)

end IsCounted

end Holding

end SortedTable

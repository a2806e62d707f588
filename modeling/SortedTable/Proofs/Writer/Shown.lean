import SortedTable.Proofs.Sink
import SortedTable.Proofs.Writer.Drafts

namespace SortedTable

/-- The file of a component is as its draft says; its bytes only if its sink keeps them. -/
structure Draft.IsShown (plan : SinkPlan) (stage : Stage) (component : Component) (draft : Draft)
    (id : Nat) : Prop where
  small : draft.bytes.length < UInt64.size
  room : plan.keeps = true → draft.bytes.length ≤ Stage.maxFileBytes
  opened : draft.isOpen = true → ∃ output, stage.output? component = some output ∧
    output.file = id ∧ output.tracker.taken = draft.bytes.length ∧
    output.AtEnd stage.store.disk ∧ (plan.keeps = true → output.bytes stage.store.disk = draft.bytes)
  closed : draft.isOpen = false → plan.keeps = true → stage.store.disk.content id = draft.bytes

/-- A stage whose files are as the drafts say, with no further names of the table than on `base`. -/
structure Stage.Follows (setting : Setting) (folder : Path) (base : Disk) (drafts : Drafts)
    (stage : Stage) : Prop extends Stands setting folder base drafts stage where
  apart : setting.descriptor.Apart folder stage.store.disk
  rest : ∀ isFinal component, (∀ draft, drafts component = some draft → draft.isFinal ≠ isFinal) →
    stage.store.disk.node? (folder ++ [setting.descriptor.nameOf isFinal component]) = none ∨
      stage.store.disk.node? (folder ++ [setting.descriptor.nameOf isFinal component]) =
        base.node? (folder ++ [setting.descriptor.nameOf isFinal component])
  idle : ∀ component, (∀ draft, drafts component = some draft → draft.isOpen = false) →
    stage.output? component = none
  shown : ∀ component draft id, drafts component = some draft →
    stage.store.disk.node? (folder ++ [setting.descriptor.nameOf draft.isFinal component]) =
      some (.file id) → draft.IsShown (setting.medium.sink component) stage component id

/-- A stage on which everything is as the drafts say, since no name of the table was taken. -/
structure Stage.Shows (setting : Setting) (folder : Path) (base : Disk) (drafts : Drafts)
    (stage : Stage) : Prop extends Follows setting folder base drafts stage where
  vacant : ∀ isFinal component,
    base.node? (folder ++ [setting.descriptor.nameOf isFinal component]) = none

/-- Nothing but one component is different on a later stage. -/
structure Stage.Keeps (descriptor : Descriptor) (folder : Path) (component : Component)
    (stage later : Stage) : Prop where
  nodes : ∀ isFinal other, other ≠ component →
    later.store.disk.node? (folder ++ [descriptor.nameOf isFinal other]) =
      stage.store.disk.node? (folder ++ [descriptor.nameOf isFinal other])
  contents : ∀ isFinal other id, other ≠ component →
    stage.store.disk.node? (folder ++ [descriptor.nameOf isFinal other]) = some (.file id) →
    later.store.disk.content id = stage.store.disk.content id
  outputs : ∀ other, other ≠ component → later.output? other = stage.output? other
  grown : stage.store.disk.contents.size ≤ later.store.disk.contents.size

/-- A draft is still shown where its file and its output are as before. -/
theorem Draft.IsShown.keep {plan : SinkPlan} {stage later : Stage} {component : Component}
    {draft : Draft} {id : Nat} (shown : draft.IsShown plan stage component id)
    (content : later.store.disk.content id = stage.store.disk.content id)
    (output : later.output? component = stage.output? component)
    (grown : stage.store.disk.contents.size ≤ later.store.disk.contents.size) :
    draft.IsShown plan later component id where
  small := shown.small
  room := shown.room
  opened isOpen := by
    obtain ⟨held, found, rfl, taken, atEnd, bytes⟩ := shown.opened isOpen
    refine ⟨held, output.trans found, rfl, taken, ⟨?_, ?_⟩, ?_⟩
    · exact Nat.lt_of_lt_of_le atEnd.inside grown
    · rw [content]
      exact atEnd.offset
    · intro keeps
      rw [Output.bytes, content]
      exact bytes keeps
  closed isClosed keeps := content.trans (shown.closed isClosed keeps)

namespace Stage.Follows

variable {setting : Setting} {folder : Path} {base : Disk} {drafts : Drafts} {stage later : Stage}

/-- A change of one component changes its draft. -/
theorem update (follows : Follows setting folder base drafts stage) {component : Component}
    {draft : Draft}
    (stands : Stands setting folder base (Function.update drafts component (some draft)) later)
    (apart : setting.descriptor.Apart folder later.store.disk)
    (keeps : Keeps setting.descriptor folder component stage later)
    (rest : ∀ isFinal, draft.isFinal ≠ isFinal →
      later.store.disk.node? (folder ++ [setting.descriptor.nameOf isFinal component]) = none ∨
        later.store.disk.node? (folder ++ [setting.descriptor.nameOf isFinal component]) =
          base.node? (folder ++ [setting.descriptor.nameOf isFinal component]))
    (idle : draft.isOpen = false → later.output? component = none)
    (shown : ∀ id, later.store.disk.node?
      (folder ++ [setting.descriptor.nameOf draft.isFinal component]) = some (.file id) →
      draft.IsShown (setting.medium.sink component) later component id) :
    Follows setting folder base (Function.update drafts component (some draft)) later where
  toStands := stands
  apart := apart
  rest isFinal other differs := by
    by_cases same : other = component
    · subst same
      exact rest isFinal (differs draft (Function.update_self ..))
    · rw [Function.update_of_ne same] at differs
      rw [keeps.nodes isFinal other same]
      exact follows.rest isFinal other differs
  idle other closed := by
    by_cases same : other = component
    · subst same
      exact idle (closed draft (Function.update_self ..))
    · rw [keeps.outputs other same]
      rw [Function.update_of_ne same] at closed
      exact follows.idle other closed
  shown other found id held node := by
    by_cases same : other = component
    · subst same
      rw [Function.update_self] at held
      cases held
      exact shown id node
    · rw [Function.update_of_ne same] at held
      rw [keeps.nodes _ other same] at node
      exact (follows.shown other found id held node).keep (keeps.contents _ other id same node)
        (keeps.outputs other same) keeps.grown

theorem create (follows : Follows setting folder base drafts stage) {component : Component}
    (nothing : drafts component = none) (done : stage.create setting component = (later, none)) :
    Follows setting folder base (Function.update drafts component (some {})) later := by
  obtain ⟨id, -, made, -, outputs⟩ := creates_of_create follows.stays done
  have other (isFinal : Bool) (held : Component) (differs : held ≠ component) :
      folder ++ [setting.descriptor.nameOf isFinal held] ≠
        folder ++ [setting.descriptor.nameOf false component] := fun same =>
    differs (Descriptor.eq_of_concat_nameOf same).2
  have found (held : Component) : later.output? held =
      (stage.output? held).or
        (if held = component then some { component := component, file := id } else none) := by
    have shape : later = ⟨later.store, later.created, stage.outputs ++
        [{ component := component, file := id }]⟩ := by rw [← outputs]
    rw [shape]
    exact output?_append held
  have own : later.output? component = some { component := component, file := id } := by
    have before : stage.output? component = none :=
      follows.idle component fun draft exists' => nomatch nothing.symm.trans exists'
    rw [found, before, if_pos rfl]
    rfl
  refine follows.update (follows.toStands.create done) (follows.apart.creates made)
    ⟨?_, ?_, ?_, made.grown⟩ ?_ nofun fun file held =>
      ⟨by decide, fun _ => Nat.zero_le _, ?_, nofun⟩
  · intro isFinal held differs
    exact made.others _ (other isFinal held differs)
  · intro isFinal held file differs node
    apply made.kept
    rintro rfl
    rcases made.origin with taken | ⟨-, size⟩
    · exact differs (follows.apart isFinal held false component file node taken).2
    · have inside := Disk.lt_size_of_node? node
      omega
  · intro held differs
    rw [found, if_neg differs, Option.or_none]
  · intro isFinal differs
    rw [made.others _ fun same => differs (Descriptor.eq_of_concat_nameOf same).1.symm]
    exact follows.rest isFinal component fun draft exists' => nomatch nothing.symm.trans exists'
  · intro _
    rw [made.held] at held
    cases held
    refine ⟨_, own, rfl, rfl, ⟨?_, ?_⟩, ?_⟩
    · exact Disk.lt_size_of_node? made.held
    · rw [made.blank]
      rfl
    · intro _
      rw [Output.bytes, made.blank]
      rfl

/-- A change within the open file of a component leaves the other components as they are. -/
theorem keeps_of_writes (follows : Follows setting folder base drafts stage) {component : Component}
    {isFinal : Bool} {id : Nat}
    (node : stage.store.disk.node? (folder ++ [setting.descriptor.nameOf isFinal component]) =
      some (.file id))
    (wrote : stage.store.disk.Writes later.store.disk id)
    (outputs : ∀ other, other ≠ component → later.output? other = stage.output? other) :
    Keeps setting.descriptor folder component stage later where
  nodes label other _ := wrote.nodes _
  contents label other file differs held := by
    apply wrote.kept
    rintro rfl
    exact differs (follows.apart label other isFinal component file held node).2
  outputs := outputs
  grown := Nat.le_of_eq wrote.size.symm

theorem apart_of_writes (follows : Follows setting folder base drafts stage) {id : Nat}
    (wrote : stage.store.disk.Writes later.store.disk id) :
    setting.descriptor.Apart folder later.store.disk := by
  intro isFinal component isFinal' other file held held'
  rw [wrote.nodes] at held held'
  exact follows.apart isFinal component isFinal' other file held held'

theorem rest_of_writes (follows : Follows setting folder base drafts stage) {component : Component}
    {draft : Draft} (held : drafts component = some draft) {id : Nat}
    (wrote : stage.store.disk.Writes later.store.disk id) {isFinal : Bool}
    (differs : draft.isFinal ≠ isFinal) :
    later.store.disk.node? (folder ++ [setting.descriptor.nameOf isFinal component]) = none ∨
      later.store.disk.node? (folder ++ [setting.descriptor.nameOf isFinal component]) =
        base.node? (folder ++ [setting.descriptor.nameOf isFinal component]) := by
  rw [wrote.nodes]
  apply follows.rest
  intro other exists'
  rw [held] at exists'
  cases exists'
  exact differs

theorem write (follows : Follows setting folder base drafts stage) {component : Component}
    {before bytes : Bytes} {isFinal : Bool}
    (held : drafts component = some ⟨before, true, isFinal⟩)
    (done : stage.write setting component bytes = (later, none)) :
    Follows setting folder base
      (Function.update drafts component (some ⟨before ++ bytes, true, isFinal⟩)) later := by
  obtain ⟨id, node⟩ := follows.placed component _ held
  obtain ⟨output, found, file, taken, atEnd, all⟩ := (follows.shown component _ id held node).opened rfl
  obtain ⟨-, named⟩ := mem_of_output? found
  have allowed : drafts.step (.write component bytes) =
      some (Function.update drafts component (some ⟨before ++ bytes, true, isFinal⟩)) := by
    rw [Drafts.step, held]
  have stands := follows.toStands.perform allowed done
  obtain ⟨store, next, rfl, takes⟩ := takes_of_write found atEnd done
  have word := takes.word
  have room := takes.room
  rw [takes.taken, taken, ← List.length_append] at word room
  have wrote : stage.store.disk.Writes store.disk id := file ▸ takes.writes
  have named' : next.component = component := takes.component.trans named
  refine follows.update stands (follows.apart_of_writes wrote) (follows.keeps_of_writes node wrote ?_)
    (fun _ => follows.rest_of_writes held wrote) (fun closed => by cases closed)
    fun held' node' => ⟨word, room, ?_, (fun closed => by cases closed)⟩
  · intro other differs
    rw [output?_setOutput, if_neg (named' ▸ differs)]
  · intro _
    have same' : id = held' := by
      have before := (wrote.nodes _).symm.trans node'
      rw [node] at before
      cases before
      rfl
    refine ⟨next, ?_, same' ▸ takes.file.trans file, ?_, takes.atEnd, fun keeps => ?_⟩
    · rw [output?_setOutput, if_pos named'.symm, found]
      rfl
    · rw [takes.taken, taken, List.length_append]
    · exact (takes.all keeps).trans (congrArg (· ++ bytes) (all keeps))

theorem close (follows : Follows setting folder base drafts stage) {component : Component}
    {bytes : Bytes} {isFinal : Bool} (held : drafts component = some ⟨bytes, true, isFinal⟩)
    (done : stage.close setting component = (later, none)) :
    Follows setting folder base
      (Function.update drafts component (some ⟨bytes, false, isFinal⟩)) later := by
  obtain ⟨id, node⟩ := follows.placed component _ held
  have shown := follows.shown component _ id held node
  obtain ⟨output, found, rfl, taken, atEnd, all⟩ := shown.opened rfl
  have allowed : drafts.step (.close component) =
      some (Function.update drafts component (some ⟨bytes, false, isFinal⟩)) := by
    rw [Drafts.step, held]
  have stands := follows.toStands.perform allowed done
  obtain ⟨next, carries⟩ := carries_drain stage.store output
  have wrote := carries.writes
  unfold Stage.close at done
  rw [found] at done
  dsimp only at done
  obtain ⟨rfl, -⟩ := Prod.mk.inj done
  refine follows.update stands (follows.apart_of_writes wrote) (follows.keeps_of_writes node wrote ?_)
    (fun _ => follows.rest_of_writes held wrote) (fun _ => ?_) fun file node' =>
      ⟨shown.small, shown.room, (fun opened => by cases opened), ?_⟩
  · intro other differs
    rw [output?_filter, if_neg differs]
  · rw [output?_filter, if_pos rfl]
  · intro _ keeps
    have before := (wrote.nodes _).symm.trans node'
    rw [node] at before
    cases before
    dsimp only
    rw [content_drain atEnd, all keeps]

theorem rename (follows : Follows setting folder base drafts stage) {component : Component}
    {bytes : Bytes} {isOpen : Bool} (held : drafts component = some ⟨bytes, isOpen, false⟩)
    (done : stage.rename setting component = (later, none)) :
    Follows setting folder base
      (Function.update drafts component (some ⟨bytes, isOpen, true⟩)) later := by
  obtain ⟨id, node⟩ := follows.placed component _ held
  have shown := follows.shown component _ id held node
  obtain ⟨file, moved, -, outputs⟩ := moves_of_rename follows.stays (follows.plain held) done
  obtain rfl : id = file := by
    have taken := moved.taken
    rw [node] at taken
    cases taken
    rfl
  have same (other : Component) : later.output? other = stage.output? other := by
    unfold Stage.output?
    rw [outputs]
  have content (other : Nat) : later.store.disk.content other = stage.store.disk.content other := by
    rw [Disk.content, moved.contents]
    rfl
  have grown : stage.store.disk.contents.size ≤ later.store.disk.contents.size :=
    Nat.le_of_eq (congrArg Array.size moved.contents).symm
  refine follows.update (follows.toStands.rename held done) (follows.apart.moves moved)
    ⟨?_, fun _ _ _ _ _ => content _, fun other _ => same other, grown⟩ ?_ ?_ fun file node' => ?_
  · intro isFinal other differs
    exact moved.others _ (Descriptor.not_isPrefix_of_ne (.inr differs.symm))
      (Descriptor.not_isPrefix_of_ne (.inr differs.symm))
  · intro isFinal differs
    obtain rfl : isFinal = false := by simpa using differs
    exact .inl moved.gone
  · intro closed
    rw [same]
    apply follows.idle
    intro draft exists'
    rw [held] at exists'
    cases exists'
    exact closed
  · rw [moved.held] at node'
    cases node'
    obtain ⟨small, room, opened, closed⟩ := shown.keep (content id) (same component) grown
    exact ⟨small, room, opened, closed⟩

theorem perform (follows : Follows setting folder base drafts stage) {step : Step} {next : Drafts}
    (allowed : drafts.step step = some next) (done : stage.perform setting step = (later, none)) :
    Follows setting folder base next later := by
  cases step with
  | notify notice =>
      have stands := follows.toStands.perform allowed done
      cases allowed
      obtain ⟨rfl, -⟩ := Prod.mk.inj done
      exact ⟨stands, follows.apart, follows.rest, follows.idle,
        fun component draft id held node =>
          (follows.shown component draft id held node).keep rfl rfl (Nat.le_refl _)⟩
  | create component =>
      rw [Drafts.step] at allowed
      split at allowed
      · rename_i nothing
        cases allowed
        exact follows.create nothing done
      · cases allowed
  | write component bytes =>
      rw [Drafts.step] at allowed
      split at allowed
      · rename_i held
        cases allowed
        exact follows.write held done
      · cases allowed
  | close component =>
      rw [Drafts.step] at allowed
      split at allowed
      · rename_i held
        cases allowed
        exact follows.close held done
      · cases allowed
  | rename component =>
      rw [Drafts.step] at allowed
      split at allowed
      · rename_i held
        cases allowed
        exact follows.rename held done
      · cases allowed

/-- Steps that all succeed change the stage as they change the drafts. -/
theorem performAll (follows : Follows setting folder base drafts stage) {steps : List Step}
    {next : Drafts} (allowed : drafts.steps steps = some next)
    (done : stage.performAll setting steps = (later, none)) :
    Follows setting folder base next later := by
  induction steps generalizing stage drafts with
  | nil =>
      cases allowed
      cases done
      exact follows
  | cons step rest ih =>
      obtain ⟨middle, first, further⟩ := Option.bind_eq_some_iff.1 allowed
      rw [Stage.performAll] at done
      split at done
      · cases done
      · rename_i performed
        exact ih (follows.perform first performed) further done

end Stage.Follows

namespace Stage.Shows

variable {setting : Setting} {folder : Path} {base : Disk} {drafts : Drafts} {stage later : Stage}

/-- A name that the drafts do not give is free. -/
theorem bare (shows' : Shows setting folder base drafts stage) (isFinal : Bool)
    (component : Component)
    (differs : ∀ draft, drafts component = some draft → draft.isFinal ≠ isFinal) :
    stage.store.disk.node? (folder ++ [setting.descriptor.nameOf isFinal component]) = none :=
  (shows'.rest isFinal component differs).elim id fun same =>
    same.trans (shows'.vacant isFinal component)

theorem performAll (shows' : Shows setting folder base drafts stage) {steps : List Step}
    {next : Drafts} (allowed : drafts.steps steps = some next)
    (done : stage.performAll setting steps = (later, none)) :
    Shows setting folder base next later :=
  ⟨shows'.toFollows.performAll allowed done, shows'.vacant⟩

end Stage.Shows

end SortedTable

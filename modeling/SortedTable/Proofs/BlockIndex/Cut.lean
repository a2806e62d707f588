import SortedTable.BlockIndex
import SortedTable.Proofs.Outcome

namespace SortedTable

/-- The clustering of an element and where the element lies. -/
structure Span where
  clustering : Clustering
  start : UInt64
  stop : UInt64
  deriving DecidableEq, Inhabited

/-- Spans that lie one behind the other without gaps. -/
inductive Span.Cover : UInt64 → List Span → UInt64 → Prop
  | nil (position : UInt64) : Cover position [] position
  | cons {span : Span} {spans : List Span} {stop : UInt64} (forward : span.start ≤ span.stop)
      (rest : Cover span.stop spans stop) : Cover span.start (span :: spans) stop

namespace Span.Cover

variable {start stop : UInt64} {spans : List Span}

theorem start_le (cover : Cover start spans stop) : start ≤ stop := by
  induction cover with
  | nil => exact UInt64.le_refl _
  | cons forward _ rec => exact UInt64.le_trans forward rec

theorem nil_iff : Cover start [] stop ↔ start = stop := by
  constructor
  · intro cover
    cases cover
    rfl
  · rintro rfl
    exact .nil start

theorem cons_iff {span : Span} : Cover start (span :: spans) stop ↔
    span.start = start ∧ span.start ≤ span.stop ∧ Cover span.stop spans stop := by
  constructor
  · intro cover
    obtain _ | ⟨forward, behind⟩ := cover
    exact ⟨rfl, forward, behind⟩
  · rintro ⟨rfl, forward, behind⟩
    exact .cons forward behind

end Span.Cover

/-- A run of elements, which has a first one. -/
structure Run where
  first : Span
  more : List Span := []
  deriving DecidableEq, Inhabited

namespace Run

def spans (run : Run) : List Span := run.first :: run.more

def last (run : Run) : Span := run.more.getLast?.getD run.first

/-- The run with one more span. -/
def push (run : Run) (span : Span) : Run := { run with more := run.more ++ [span] }

/-- The run without its last span, if anything is left. -/
def front? (run : Run) : Option Run :=
  if run.more = [] then none else some { run with more := run.more.dropLast }

/-- The number of bytes from the start of a run to its end. -/
def extent (run : Run) : Nat := run.last.stop.toNat - run.first.start.toNat

/-- The block of a run in a partition. -/
def block (run : Run) (partitionStart : UInt64) : Block where
  first := run.first.clustering
  last := run.last.clustering
  offset := run.first.start - partitionStart
  width := run.last.stop - run.first.start

/-- The block of a run that still grows. -/
def opened (run : Run) : OpenBlock := ⟨run.first.clustering, run.last.clustering, run.first.start⟩

/-- The run that a span continues, or begins. -/
def extend (current : Option Run) (span : Span) : Run := current.elim ⟨span, []⟩ (·.push span)

@[simp] theorem first_push (run : Run) (span : Span) : (run.push span).first = run.first := rfl

@[simp] theorem last_push (run : Run) (span : Span) : (run.push span).last = span := by
  simp [last, push]

@[simp] theorem last_single (span : Span) : (Run.mk span []).last = span := rfl

@[simp] theorem front?_push (run : Run) (span : Span) : (run.push span).front? = some run := by
  simp [front?, push]

@[simp] theorem front?_single (span : Span) : (Run.mk span []).front? = none := rfl

@[simp] theorem last_extend (current : Option Run) (span : Span) : (extend current span).last = span := by
  cases current <;> simp [extend]

@[simp] theorem front?_extend (current : Option Run) (span : Span) :
    (extend current span).front? = current := by
  cases current <;> simp [extend]

theorem spans_extend (current : Option Run) (span : Span) :
    (extend current span).spans = current.elim [] spans ++ [span] := by
  cases current <;> rfl

@[simp] theorem head?_spans (run : Run) : run.spans.head? = some run.first := rfl

@[simp] theorem getLast?_spans (run : Run) : run.spans.getLast? = some run.last := by
  simp [spans, last, List.getLast?_cons]

theorem spans_of_front? {run front : Run} (held : run.front? = some front) :
    run.spans = front.spans ++ [run.last] := by
  obtain ⟨first, more⟩ := run
  simp only [front?] at held
  split at held
  · cases held
  · rename_i nonempty
    cases held
    have last : (Run.mk first more).last = more.getLast nonempty := by
      simp [Run.last, List.getLast?_eq_some_getLast nonempty]
    rw [last]
    exact congrArg (first :: ·) (List.dropLast_append_getLast nonempty).symm

theorem more_of_front? {run : Run} (nothing : run.front? = none) : run.more = [] := by
  simpa [front?] using nothing

/-- A run lies from its first start to its last stop. -/
theorem ends_of_cover {run : Run} {start stop : UInt64} (cover : Span.Cover start run.spans stop) :
    run.first.start = start ∧ run.last.stop = stop := by
  obtain ⟨first, more⟩ := run
  induction more generalizing first start with
  | nil =>
      obtain ⟨begins, -, nothing⟩ := Span.Cover.cons_iff.1 cover
      exact ⟨begins, Span.Cover.nil_iff.1 nothing⟩
  | cons next rest rec =>
      obtain ⟨begins, -, behind⟩ := Span.Cover.cons_iff.1 cover
      have last : (Run.mk first (next :: rest)).last = (Run.mk next rest).last := by
        simp [Run.last, List.getLast?_cons]
      rw [last]
      exact ⟨begins, (rec next behind).2⟩

end Run

namespace Span

/-- Cuts spans into runs, the first of which may have begun. A run ends as soon as it has `size` bytes. -/
def cut (size : Nat) (current : Option Run) : List Span → List Run
  | [] => current.toList
  | span :: rest =>
      let run := Run.extend current span
      if size ≤ run.extent then run :: cut size none rest else cut size (some run) rest

/-- A cut loses no span. -/
theorem flatMap_cut (size : Nat) (current : Option Run) (spans : List Span) :
    (cut size current spans).flatMap Run.spans = current.elim [] Run.spans ++ spans := by
  induction spans generalizing current with
  | nil => cases current <;> simp [cut]
  | cons span rest rec =>
      simp only [cut]
      split <;> simp [rec, Run.spans_extend]

/-- Runs that are blocks as soon as they reach a size. -/
structure IsGreedy (size : Nat) (runs : List Run) : Prop where
  short : ∀ run ∈ runs, ∀ front, run.front? = some front → front.extent < size
  full : ∀ run ∈ runs.dropLast, size ≤ run.extent

theorem isGreedy_cut {size : Nat} {current : Option Run} (spans : List Span)
    (begun : ∀ run, current = some run →
      run.extent < size ∧ ∀ front, run.front? = some front → front.extent < size) :
    IsGreedy size (cut size current spans) := by
  induction spans generalizing current with
  | nil =>
      cases current with
      | none => exact ⟨nofun, nofun⟩
      | some run => exact ⟨by simpa [cut] using (begun run rfl).2, nofun⟩
  | cons span rest rec =>
      have short : ∀ front, (Run.extend current span).front? = some front → front.extent < size := by
        intro front held
        rw [Run.front?_extend] at held
        exact (begun front held).1
      simp only [cut]
      split
      · rename_i full
        have others : IsGreedy size (cut size none rest) := rec nofun
        constructor
        · intro run member
          obtain rfl | member := List.mem_cons.1 member
          · exact short
          · exact others.short run member
        · intro run member
          cases held : cut size none rest with
          | nil => simp [held] at member
          | cons next more =>
              rw [held, List.dropLast_cons_of_ne_nil (List.cons_ne_nil _ _), List.mem_cons] at member
              obtain rfl | member := member
              · exact full
              · exact others.full run (held ▸ member)
      · rename_i open'
        apply rec
        rintro run ⟨⟩
        exact ⟨Nat.lt_of_not_le open', short⟩

end Span

namespace BlockIndex

/-- Adds elements in order. -/
def addAll (index : BlockIndex) (spans : List Span) : Except Overflow BlockIndex :=
  spans.foldlM (fun index span => index.add span.clustering span.start span.stop) index

theorem addAll_cons (index : BlockIndex) (span : Span) (spans : List Span) :
    index.addAll (span :: spans) =
      index.add span.clustering span.start span.stop >>= fun index => index.addAll spans :=
  List.foldlM_cons ..

/-- Blocks, unless there is only one. -/
def several (blocks : List Block) : List Block := if blocks.length ≤ 1 then [] else blocks

theorem length_le_of_several {blocks : List Block} (nothing : several blocks = []) :
    blocks.length ≤ 1 := by
  rw [several] at nothing
  split at nothing
  · assumption
  · simp [nothing]

/-- The open block is that of the run that ends at `position`, behind the start of the partition. -/
structure Grows (index : BlockIndex) (current : Option Run) (position : UInt64) : Prop where
  held : index.current = current.map Run.opened
  behind : index.partitionStart ≤ position
  ends : ∀ run, current = some run → index.partitionStart ≤ run.first.start ∧
    run.first.start ≤ position ∧ run.last.stop = position

variable {index : BlockIndex} {current : Option Run} {position : UInt64}

theorem close_of_grows {run : Run} (grows : index.Grows (some run) position) :
    index.close position =
      .ok { index with closed := run.block index.partitionStart :: index.closed, current := none } := by
  obtain ⟨start, stop, rfl⟩ := grows.ends run rfl
  have held : index.current = some run.opened := grows.held
  simp only [close, held, Run.opened, exactDifference, if_pos start, if_pos stop]
  rfl

theorem Grows.extend (grows : index.Grows current position) (clustering : Clustering)
    {stop : UInt64} (forward : position ≤ stop) :
    let run := Run.extend current ⟨clustering, position, stop⟩
    index.partitionStart ≤ run.first.start ∧ run.first.start ≤ stop := by
  cases current with
  | none => exact ⟨grows.behind, forward⟩
  | some run =>
      obtain ⟨start, inside, -⟩ := grows.ends run rfl
      exact ⟨start, UInt64.le_trans inside forward⟩

/-- A span grows the open block or begins one, and closes it when it is large enough. -/
theorem add_of_grows (grows : index.Grows current position) (clustering : Clustering)
    {stop : UInt64} (forward : position ≤ stop) :
    let run := Run.extend current ⟨clustering, position, stop⟩
    index.add clustering position stop = .ok
      (if index.blockSize.toNat ≤ run.extent then
        { index with closed := run.block index.partitionStart :: index.closed, current := none }
      else { index with current := some run.opened }) := by
  intro run
  obtain ⟨start, inside⟩ := grows.extend clustering forward
  have last : run.last.stop = stop := congrArg Span.stop (Run.last_extend _ _)
  have width : (stop - run.first.start).toNat = run.extent := by
    rw [UInt64.toNat_sub_of_le _ _ inside, Run.extent, last]
  have closes : BlockIndex.close { index with current := some run.opened } stop =
      .ok { index with closed := run.block index.partitionStart :: index.closed, current := none } := by
    have grown : Grows { index with current := some run.opened } (some run) stop := by
      refine ⟨rfl, UInt64.le_trans start inside, ?_⟩
      rintro _ ⟨⟩
      exact ⟨start, inside, last⟩
    exact close_of_grows grown
  have opened : index.add clustering position stop =
      exactDifference stop run.first.start >>= fun width =>
        if index.blockSize ≤ width then
          BlockIndex.close { index with current := some run.opened } stop
        else pure { index with current := some run.opened } := by
    rw [add, grows.held]
    cases current with
    | none => rfl
    | some before => simp [run, Run.extend, Run.opened]
  have reaches : index.blockSize ≤ stop - run.first.start ↔ index.blockSize.toNat ≤ run.extent := by
    rw [UInt64.le_iff_toNat_le, width]
  rw [opened, exactDifference, if_pos inside, Except.ok_bind]
  by_cases full : index.blockSize.toNat ≤ run.extent
  · rw [if_pos (reaches.2 full), if_pos full, closes]
  · rw [if_neg (mt reaches.1 full), if_neg full]
    rfl

/-- The blocks of an index after spans are those that were closed before and those of the cut. -/
theorem blocks_addAll (grows : index.Grows current position) {spans : List Span} {stop : UInt64}
    (cover : Span.Cover position spans stop) :
    (index.addAll spans >>= fun index => index.blocks stop) = .ok (several (index.closed.reverse ++
      (Span.cut index.blockSize.toNat current spans).map (Run.block · index.partitionStart))) := by
  induction spans generalizing index current position with
  | nil =>
      obtain rfl := Span.Cover.nil_iff.1 cover
      change index.blocks position = _
      cases current with
      | none =>
          have held : index.current = none := grows.held
          simp [blocks, close, held, Span.cut, Except.map, several]
      | some run => simp [blocks, close_of_grows grows, Span.cut, Except.map, several]
  | cons span rest rec =>
      obtain ⟨rfl, forward, behind⟩ := Span.Cover.cons_iff.1 cover
      obtain ⟨start, inside⟩ := grows.extend span.clustering forward
      have below := UInt64.le_trans start inside
      have added := add_of_grows grows span.clustering forward
      rw [addAll_cons, added, Except.ok_bind, Span.cut]
      by_cases full : index.blockSize.toNat ≤ (Run.extend current span).extent
      · rw [if_pos full, if_pos full]
        have grown : Grows { index with
            closed := (Run.extend current span).block index.partitionStart :: index.closed
            current := none } none span.stop := ⟨rfl, below, nofun⟩
        apply (rec grown behind).trans
        simp
      · rw [if_neg full, if_neg full]
        have grown : Grows { index with current := some (Run.extend current span).opened }
            (some (Run.extend current span)) span.stop := by
          refine ⟨rfl, below, ?_⟩
          rintro run ⟨⟩
          exact ⟨start, inside, congrArg Span.stop (Run.last_extend current span)⟩
        exact rec grown behind

end BlockIndex

end SortedTable

import Mathlib.Data.List.Induction
import SortedTable.Proofs.BlockIndex.Cut

namespace SortedTable

variable {size : Nat} {start stop : UInt64}

/-- If the spans of two lists lie one behind the other, then so do those of each list. -/
theorem Span.Cover.exists_of_append {front back : List Span} (cover : Cover start (front ++ back) stop) :
    ∃ middle, Cover start front middle ∧ Cover middle back stop := by
  induction front generalizing start with
  | nil => exact ⟨start, .nil start, cover⟩
  | cons span front ih =>
      obtain ⟨begins, forward, behind⟩ := cons_iff.1 cover
      obtain ⟨middle, before, after⟩ := ih behind
      exact ⟨middle, cons_iff.2 ⟨begins, forward, before⟩, after⟩

namespace Run

variable {run front : Run}

theorem cover_front (cover : Span.Cover start run.spans stop) (held : run.front? = some front) :
    ∃ middle, Span.Cover start front.spans middle ∧ middle ≤ stop := by
  rw [spans_of_front? held] at cover
  obtain ⟨middle, before, after⟩ := cover.exists_of_append
  exact ⟨middle, before, after.start_le⟩

/-- Each run of a cut begins where one of the spans does, and does not end before it begins. -/
theorem forward_of_mem {runs : List Run} (cover : Span.Cover start (runs.flatMap Run.spans) stop)
    (member : run ∈ runs) :
    run.first ∈ runs.flatMap Run.spans ∧ run.first.start ≤ run.last.stop := by
  obtain ⟨before, after, rfl⟩ := List.append_of_mem member
  rw [List.flatMap_append, List.flatMap_cons] at cover
  obtain ⟨middle, -, further⟩ := cover.exists_of_append
  obtain ⟨last, inside, -⟩ := further.exists_of_append
  obtain ⟨begins, ends⟩ := ends_of_cover inside
  refine ⟨List.mem_flatMap.2 ⟨run, member, List.mem_cons_self⟩, ?_⟩
  rw [begins, ends]
  exact inside.start_le

/-- A run does not get longer without its last span. -/
theorem extent_front_le (cover : Span.Cover start run.spans stop) (held : run.front? = some front) :
    front.extent ≤ run.extent := by
  obtain ⟨middle, before, inside⟩ := cover_front cover held
  obtain ⟨begins, ends⟩ := ends_of_cover cover
  obtain ⟨begins', ends'⟩ := ends_of_cover before
  rw [extent, extent, begins, ends, begins', ends']
  exact Nat.sub_le_sub_right (UInt64.le_iff_toNat_le.1 inside) _

/-- The numbers in the block of a run are exact. -/
theorem toNat_block {partitionStart : UInt64} (behind : partitionStart ≤ run.first.start)
    (forward : run.first.start ≤ run.last.stop) :
    partitionStart.toNat + (run.block partitionStart).offset.toNat = run.first.start.toNat ∧
      (run.block partitionStart).width.toNat = run.extent := by
  have begins := UInt64.toNat_sub_of_le _ _ behind
  have bound := UInt64.le_iff_toNat_le.1 behind
  refine ⟨?_, UInt64.toNat_sub_of_le _ _ forward⟩
  rw [block, begins]
  omega

end Run

namespace Span

/-- A run that was not full before its last span is cut off if it is full then, and is open if not. -/
theorem cut_append {run : Run} (cover : Cover start run.spans stop)
    (short : ∀ front, run.front? = some front → front.extent < size) (rest : List Span) :
    cut size none (run.spans ++ rest) =
      if size ≤ run.extent then run :: cut size none rest else cut size (some run) rest := by
  obtain ⟨first, more⟩ := run
  induction more using List.reverseRecOn generalizing stop rest with
  | nil => rfl
  | append_singleton more last ih =>
      have held : (Run.mk first (more ++ [last])).front? = some ⟨first, more⟩ :=
        Run.front?_push ⟨first, more⟩ last
      obtain ⟨middle, before, -⟩ := Run.cover_front cover held
      have below := short _ held
      -- the run without its last span is still open when that span comes
      have begun := ih (last :: rest) before fun front inner =>
        Nat.lt_of_le_of_lt (Run.extent_front_le before inner) below
      rw [if_neg (Nat.not_le.2 below)] at begun
      have ends : (Run.mk first (more ++ [last])).last = last := Run.last_push ⟨first, more⟩ last
      rw [Run.spans_of_front? held, List.append_assoc, ends]
      exact begun

namespace IsGreedy

variable {run : Run} {runs : List Run}

theorem tail (greedy : IsGreedy size (run :: runs)) : IsGreedy size runs where
  short other member := greedy.short other (List.mem_cons_of_mem run member)
  full other member := by
    cases runs with
    | nil => cases member
    | cons next more => exact greedy.full other (List.mem_cons_of_mem run member)

/-- A greedy cut is the one that is made span by span. -/
theorem eq_cut (greedy : IsGreedy size runs) (cover : Cover start (runs.flatMap Run.spans) stop) :
    runs = cut size none (runs.flatMap Run.spans) := by
  induction runs generalizing start with
  | nil => rfl
  | cons run rest ih =>
      rw [List.flatMap_cons] at cover ⊢
      obtain ⟨middle, before, after⟩ := cover.exists_of_append
      rw [cut_append before (greedy.short run List.mem_cons_self), ← ih greedy.tail after]
      split
      · rfl
      · -- only the last run may be short
        rename_i short
        cases rest with
        | nil => rfl
        | cons next more => exact absurd (greedy.full run List.mem_cons_self) short

end IsGreedy

end Span

namespace BlockIndex

theorem toNat_blockSize_start (partitionStart blockSize : UInt64) :
    (BlockIndex.start partitionStart blockSize).blockSize.toNat = max 1 blockSize.toNat := by
  by_cases zero : blockSize = 0
  · rw [zero]
    rfl
  · have size : (BlockIndex.start partitionStart blockSize).blockSize = blockSize := if_neg zero
    have positive := mt UInt64.toNat_inj.1 zero
    rw [UInt64.toNat_zero] at positive
    rw [size]
    omega

/-- Adding spans that lie one behind the other gives the blocks of their cut. -/
theorem blocks_start (partitionStart blockSize : UInt64) {spans : List Span}
    (behind : ∀ span ∈ spans, partitionStart ≤ span.start) (cover : Span.Cover start spans stop) :
    ((BlockIndex.start partitionStart blockSize).addAll spans >>= fun index => index.blocks stop) =
      .ok (several ((Span.cut (max 1 blockSize.toNat) none spans).map
        (Run.block · partitionStart))) := by
  cases spans with
  | nil => rfl
  | cons first rest =>
      have begins := (Span.Cover.cons_iff.1 cover).1
      have grows : (BlockIndex.start partitionStart blockSize).Grows none start :=
        ⟨rfl, begins ▸ behind first List.mem_cons_self, nofun⟩
      rw [← toNat_blockSize_start partitionStart blockSize]
      exact blocks_addAll grows cover

/-- Spans in a row are cut into blocks greedily, in the only way there is, and nothing underflows. -/
theorem exists_greedy_blocks (partitionStart blockSize : UInt64) {spans : List Span}
    (behind : ∀ span ∈ spans, partitionStart ≤ span.start) (cover : Span.Cover start spans stop) :
    ∃ runs : List Run,
      ((BlockIndex.start partitionStart blockSize).addAll spans >>= fun index => index.blocks stop) =
        .ok (if runs.length < 2 then [] else runs.map (Run.block · partitionStart)) ∧
      (∀ run ∈ runs,
        partitionStart.toNat + (run.block partitionStart).offset.toNat = run.first.start.toNat ∧
          (run.block partitionStart).width.toNat = run.extent) ∧
      ∀ others : List Run, others.flatMap Run.spans = spans ∧
        Span.IsGreedy (max 1 blockSize.toNat) others ↔ others = runs := by
  have whole : (Span.cut (max 1 blockSize.toNat) none spans).flatMap Run.spans = spans :=
    Span.flatMap_cut _ none spans
  have greedy : Span.IsGreedy (max 1 blockSize.toNat) (Span.cut (max 1 blockSize.toNat) none spans) :=
    Span.isGreedy_cut spans nofun
  refine ⟨Span.cut (max 1 blockSize.toNat) none spans, ?_, fun run member => ?_, fun others => ?_⟩
  · simp only [blocks_start partitionStart blockSize behind cover, several, List.length_map,
      Nat.lt_succ_iff]
  · obtain ⟨inside, forward⟩ := Run.forward_of_mem (whole.symm ▸ cover) member
    rw [whole] at inside
    exact Run.toNat_block (behind _ inside) forward
  · constructor
    · rintro ⟨rfl, others⟩
      exact others.eq_cut cover
    · rintro rfl
      exact ⟨whole, greedy⟩

/-- Five spans, one of them empty. -/
def quintet : List Span :=
  [⟨[[1]], 120, 150⟩, ⟨[[2]], 150, 170⟩, ⟨[[3]], 170, 300⟩, ⟨[[4]], 300, 300⟩, ⟨[[5]], 300, 310⟩]

/-- Five spans in blocks of fifty bytes: two fill one exactly, a long one is one, and two are left. -/
theorem exists_greedy_blocks_quintet :
    Span.Cover 120 quintet 310 ∧
      ((BlockIndex.start 100 50).addAll quintet >>= fun index => index.blocks 310) =
        .ok [⟨[[1]], [[2]], 20, 50⟩, ⟨[[3]], [[3]], 70, 130⟩, ⟨[[4]], [[5]], 200, 10⟩] := by
  have cover : Span.Cover 120 quintet 310 := by
    simp only [quintet, Span.Cover.cons_iff, Span.Cover.nil_iff]
    decide
  obtain ⟨runs, blocks, -, unique⟩ := exists_greedy_blocks 100 50 (by decide) cover
  have cut : Span.cut 50 none quintet = [⟨⟨[[1]], 120, 150⟩, [⟨[[2]], 150, 170⟩]⟩,
      ⟨⟨[[3]], 170, 300⟩, []⟩, ⟨⟨[[4]], 300, 300⟩, [⟨[[5]], 300, 310⟩]⟩] := by decide
  have greedy : Span.IsGreedy 50 (Span.cut 50 none quintet) := Span.isGreedy_cut quintet nofun
  obtain rfl := (unique _).1 ⟨Span.flatMap_cut 50 none quintet, greedy⟩
  rw [cut] at blocks
  exact ⟨cover, blocks⟩

end BlockIndex

end SortedTable

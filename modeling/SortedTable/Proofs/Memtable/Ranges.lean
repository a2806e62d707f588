import SortedTable.Proofs.Memtable.History

namespace SortedTable

theorem isLE_eq_false_iff {left right : Clustering} :
    (compare left right).isLE = false ↔ compare right left = .lt := by
  rw [@Std.OrientedCmp.eq_swap _ compare _ left]
  cases compare right left <;> decide

/-- The place is not behind the limit. -/
def isUpTo (limit place : Clustering) : Bool := (compare place limit).isLE

namespace DeletedRange

/-- The first clustering of the range is not behind its last one. -/
def IsForward (range : DeletedRange) : Prop := (compare range.first range.last).isLE

/-- The clustering is in the range, both ends included. -/
def covers (range : DeletedRange) (clustering : Clustering) : Bool :=
  (compare range.first clustering).isLE && (compare clustering range.last).isLE

/-- The range runs backwards, and the clustering is strictly between its ends. -/
def isAround (range : DeletedRange) (clustering : Clustering) : Bool :=
  !(compare range.first clustering).isLE && !(compare clustering range.last).isLE

/-- Around a clustering there is no range that runs forwards. -/
theorem IsForward.isAround {range : DeletedRange} (forward : range.IsForward)
    (clustering : Clustering) : range.isAround clustering = false := by
  unfold DeletedRange.isAround
  cases early : (compare range.first clustering).isLE with
  | true => rfl
  | false =>
      cases late : (compare clustering range.last).isLE with
      | true => rfl
      | false =>
          have above := Std.TransCmp.lt_trans (isLE_eq_false_iff.1 late) (isLE_eq_false_iff.1 early)
          rw [IsForward, isLE_eq_false_iff.2 above] at forward
          cases forward

end DeletedRange

namespace Element

def opens : Element → Bool
  | .marker ⟨.opening, _, _⟩ => true
  | _ => false

def closes : Element → Bool
  | .marker ⟨.closing, _, _⟩ => true
  | _ => false

theorem rank_of_opens {element : Element} (opens : element.opens) : element.rank = 0 := by
  obtain content | ⟨bound, clustering, deletion⟩ := element
  · cases opens
  · cases bound
    · rfl
    · cases opens

theorem rank_of_closes {element : Element} (closes : element.closes) : element.rank = 2 := by
  obtain content | ⟨bound, clustering, deletion⟩ := element
  · cases closes
  · cases bound
    · cases closes
    · rfl

/-- An opening marker that is not before a row or a closing marker is strictly behind it. -/
theorem isLE_eq_false_of_opens {element marker : Element} (opens : marker.opens)
    (order : element.notAfter marker) (later : 0 < element.rank) :
    (compare marker.clustering element.clustering).isLE = false := by
  obtain below | ⟨-, low⟩ := notAfter_iff.1 order
  · exact isLE_eq_false_iff.2 below
  · rw [rank_of_opens opens] at low
    omega

/-- A closing marker that is not behind a row is strictly before it. -/
theorem isLE_eq_false_of_closes {element marker : Element} (closes : marker.closes)
    (order : marker.notAfter element) (earlier : element.rank < 2) :
    (compare element.clustering marker.clustering).isLE = false := by
  obtain below | ⟨-, low⟩ := notAfter_iff.1 order
  · exact isLE_eq_false_iff.2 below
  · rw [rank_of_closes closes] at low
    omega

/-- In a list in order no closing marker is behind the last one. -/
theorem exists_last_closes {elements : List Element}
    (ordered : elements.Pairwise fun left right => left.notAfter right) :
    (∀ element ∈ elements, ¬ element.closes) ∨ ∃ marker ∈ elements, marker.closes ∧
      ∀ element ∈ elements, element.closes →
        isUpTo marker.clustering element.clustering := by
  cases last : (elements.filter closes).getLast? with
  | none => exact .inl (List.filter_eq_nil_iff.1 (List.getLast?_eq_none_iff.1 last))
  | some marker =>
      obtain ⟨others, closers⟩ := List.getLast?_eq_some_iff.1 last
      obtain ⟨inside, isClosing⟩ := List.mem_filter.1
        (closers ▸ List.mem_append_right others List.mem_cons_self)
      refine .inr ⟨marker, inside, isClosing, ?_⟩
      intro element member isClosing'
      have ordered := ordered.filter closes
      have member : element ∈ others ++ [marker] :=
        closers ▸ List.mem_filter.2 ⟨member, isClosing'⟩
      rw [closers, List.pairwise_append] at ordered
      obtain member | same := List.mem_append.1 member
      · exact isLE_of_notAfter (ordered.2.2 element member marker List.mem_cons_self)
      · rw [List.mem_singleton.1 same]
        exact Std.ReflCmp.isLE_rfl

end Element

/-- The number of opening markers. -/
def openings (elements : List Element) : Nat := elements.countP Element.opens

/-- The number of closing markers. -/
def closings (elements : List Element) : Nat := elements.countP Element.closes

section

variable {front back : List Element} (kind : Element → Bool) (near : Clustering → Bool)

theorem countP_inside (inside : ∀ element ∈ front, kind element → near element.clustering) :
    front.countP kind = front.countP fun element => kind element && near element.clustering := by
  apply List.countP_congr
  intro element member
  rw [Bool.and_eq_true]
  exact ⟨fun of => ⟨of, inside element member of⟩, And.left⟩

theorem countP_outside
    (outside : ∀ element ∈ back, kind element → near element.clustering = false) :
    (front ++ back).countP (fun element => kind element && near element.clustering) =
      front.countP fun element => kind element && near element.clustering := by
  rw [List.countP_append, Nat.add_eq_left, List.countP_eq_zero]
  intro element member both
  rw [Bool.and_eq_true] at both
  rw [outside element member both.1] at both
  cases both.2

/-- A cut that parts the elements of one kind by their clusterings counts those on its near side. -/
theorem countP_front (inside : ∀ element ∈ front, kind element → near element.clustering)
    (outside : ∀ element ∈ back, kind element → near element.clustering = false) :
    front.countP kind =
      (front ++ back).countP fun element => kind element && near element.clustering :=
  (countP_inside kind near inside).trans (countP_outside kind near outside).symm

end

namespace Contents

variable (contents : Contents) (key : Key) (near : Clustering → Bool)

/-- Of each range the elements of a partition have one marker of a kind, and rows are of neither kind. -/
theorem countP_elements_partition {kind : Element → Bool} {place : DeletedRange → Clustering}
    (rows : ∀ row, kind (.row row) = false)
    (markers : ∀ range : DeletedRange,
      range.markers.countP (fun element => kind element && near element.clustering) =
        if near (place range) then 1 else 0) :
    (contents.partition key).elements.countP
        (fun element => kind element && near element.clustering) =
      contents.ranges.countP fun range => near (place range) := by
  rw [partition, (List.mergeSort_perm contents.elements _).countP_eq, elements, List.countP_append]
  refine (Nat.add_eq_left.2 (List.countP_eq_zero.2 ?_)).trans ?_
  · intro element member
    obtain ⟨row, -, rfl⟩ := List.mem_map.1 member
    simp [rows]
  · induction contents.ranges with
    | nil => rfl
    | cons range rest inductive_step =>
        rw [List.flatMap_cons, List.countP_append, inductive_step, List.countP_cons, markers,
          Nat.add_comm]

theorem countP_opens :
    (contents.partition key).elements.countP
        (fun element => element.opens && near element.clustering) =
      contents.ranges.countP fun range => near range.first := by
  apply countP_elements_partition contents key near fun _ => rfl
  intro range
  show List.countP _ [_, _] = _
  simp [List.countP_cons, Element.opens, Element.clustering]

theorem countP_closes :
    (contents.partition key).elements.countP
        (fun element => element.closes && near element.clustering) =
      contents.ranges.countP fun range => near range.last := by
  apply countP_elements_partition contents key near fun _ => rfl
  intro range
  show List.countP _ [_, _] = _
  simp [List.countP_cons, Element.closes, Element.clustering]

/-- The opening markers before a row are those of the ranges that do not begin behind it. -/
theorem openings_before {front back : List Element} {row : Row}
    (split : (contents.partition key).elements = front ++ .row row :: back) :
    openings front =
      contents.ranges.countP fun range => (compare range.first row.clustering).isLE := by
  have ordered := contents.pairwise_elements_partition key
  rw [split, List.pairwise_append, List.pairwise_cons] at ordered
  obtain ⟨-, ⟨behind, -⟩, before⟩ := ordered
  show _ = contents.ranges.countP fun range => isUpTo row.clustering range.first
  rw [← contents.countP_opens key (isUpTo row.clustering), split]
  apply countP_front Element.opens (isUpTo row.clustering)
  · intro marker member _
    exact Element.isLE_of_notAfter (before marker member _ List.mem_cons_self)
  · intro marker member opens
    obtain rfl | member := List.mem_cons.1 member
    · cases opens
    · exact Element.isLE_eq_false_of_opens opens (behind marker member) Nat.one_pos

/-- The closing markers before a row are those of the ranges that end before it. -/
theorem closings_before {front back : List Element} {row : Row}
    (split : (contents.partition key).elements = front ++ .row row :: back) :
    closings front =
      contents.ranges.countP fun range => !(compare row.clustering range.last).isLE := by
  have ordered := contents.pairwise_elements_partition key
  rw [split, List.pairwise_append, List.pairwise_cons] at ordered
  obtain ⟨-, ⟨behind, -⟩, before⟩ := ordered
  rw [← contents.countP_closes key fun place => !(compare row.clustering place).isLE, split]
  apply countP_front Element.closes fun place => !(compare row.clustering place).isLE
  · intro marker member closes
    exact congrArg (! ·) (Element.isLE_eq_false_of_closes closes
      (before marker member _ List.mem_cons_self) Nat.one_lt_two)
  · intro marker member closes
    obtain rfl | member := List.mem_cons.1 member
    · cases closes
    · exact congrArg (! ·) (Element.isLE_of_notAfter (behind marker member))

/-- If all ranges run forwards, no part of the elements from the front has more closing markers. -/
theorem closings_le_openings {front back : List Element}
    (forward : ∀ range ∈ contents.ranges, range.IsForward)
    (split : (contents.partition key).elements = front ++ back) :
    closings front ≤ openings front := by
  have ordered := contents.pairwise_elements_partition key
  rw [split, List.pairwise_append] at ordered
  obtain ⟨ordered, -, before⟩ := ordered
  -- Up to the last closing marker in front are all the closing ones in front, and no opening one behind.
  obtain none | ⟨marker, inside, closes, closing⟩ := Element.exists_last_closes ordered
  · rw [closings, List.countP_eq_zero.2 none]
    exact Nat.zero_le _
  have opening : ∀ element ∈ back, element.opens →
      isUpTo marker.clustering element.clustering = false := by
    intro element member opens
    apply Element.isLE_eq_false_of_opens opens (before marker inside element member)
    rw [Element.rank_of_closes closes]
    exact Nat.two_pos
  calc closings front
      = front.countP fun element => element.closes && isUpTo marker.clustering element.clustering :=
        countP_inside Element.closes (isUpTo marker.clustering) closing
    _ ≤ (front ++ back).countP fun element =>
          element.closes && isUpTo marker.clustering element.clustering :=
        (List.sublist_append_left front back).countP_le
    _ = contents.ranges.countP fun range => isUpTo marker.clustering range.last := by
        rw [← split, contents.countP_closes]
    _ ≤ contents.ranges.countP fun range => isUpTo marker.clustering range.first := by
        apply List.countP_mono_left
        intro range member early
        exact Std.TransCmp.isLE_trans (forward range member) early
    _ = (front ++ back).countP fun element =>
          element.opens && isUpTo marker.clustering element.clustering := by
        rw [← split, contents.countP_opens]
    _ = front.countP fun element => element.opens && isUpTo marker.clustering element.clustering :=
        countP_outside Element.opens (isUpTo marker.clustering) opening
    _ ≤ openings front := by
        apply List.countP_mono_left
        intro element _ both
        exact (Bool.and_eq_true _ _ ▸ both).1

/-- A partition has one marker of each kind for every range. -/
theorem openings_elements_partition :
    openings (contents.partition key).elements = contents.ranges.length := by
  have all := contents.countP_opens key fun _ => true
  simp only [Bool.and_true, List.countP_true] at all
  exact all

theorem closings_elements_partition :
    closings (contents.partition key).elements = contents.ranges.length := by
  have all := contents.countP_closes key fun _ => true
  simp only [Bool.and_true, List.countP_true] at all
  exact all

end Contents

/-- The markers bracket the rows; a backward range counts against the rows strictly between its ends. -/
structure Partition.Brackets (partition : Partition) (ranges : List DeletedRange) : Prop where
  rows : ∀ front row back, partition.elements = front ++ .row row :: back →
    openings front + ranges.countP (·.isAround row.clustering) =
      closings front + ranges.countP (·.covers row.clustering)
  covered : (∀ range ∈ ranges, range.IsForward) →
    ∀ front row back, partition.elements = front ++ .row row :: back →
      openings front = closings front + ranges.countP (·.covers row.clustering)
  prefixes : (∀ range ∈ ranges, range.IsForward) →
    ∀ front back, partition.elements = front ++ back → closings front ≤ openings front
  balanced : openings partition.elements = closings partition.elements

theorem Contents.brackets (contents : Contents) (key : Key) :
    (contents.partition key).Brackets contents.ranges := by
  have rows : ∀ front row back, (contents.partition key).elements = front ++ .row row :: back →
      openings front + contents.ranges.countP (·.isAround row.clustering) =
        closings front + contents.ranges.countP (·.covers row.clustering) := by
    intro front row back split
    rw [contents.openings_before key split, contents.closings_before key split]
    induction contents.ranges with
    | nil => rfl
    | cons range rest inductive_step =>
        simp only [List.countP_cons]
        unfold DeletedRange.isAround DeletedRange.covers at inductive_step ⊢
        cases (compare range.first row.clustering).isLE <;>
          cases (compare row.clustering range.last).isLE <;> simp at inductive_step ⊢ <;> omega
  refine ⟨rows, ?_, ?_, ?_⟩
  · intro forward front row back split
    rw [← rows front row back split, Nat.left_eq_add, List.countP_eq_zero]
    intro range member
    rw [(forward range member).isAround]
    exact Bool.false_ne_true
  · intro forward front back split
    exact contents.closings_le_openings key forward split
  · rw [openings_elements_partition, closings_elements_partition]

namespace Memtable

variable {history : List Operation} {key : Key} {partition : Partition}

/-- The markers of a partition bracket its rows by the ranges that were deleted since the last
clearing. -/
theorem brackets_performAll (held : (empty.performAll history).partition? key = some partition) :
    partition.Brackets (rangesOf (sinceClear history) key) := by
  obtain ⟨contents, stored, rfl⟩ := Option.map_eq_some_iff.1 held
  rw [← ((holds_performAll history).contents key).ranges, contents_of_partitions stored]
  exact contents.brackets key

/-- One row that is written, and then a range of clusterings that is deleted, under one key. -/
def rowAndRange (range : DeletedRange) : List Operation :=
  [.put (.ofBytes [0x6b]) [[0x62]] ⟨"v", 1, some [0x78]⟩, .deleteRange (.ofBytes [0x6b]) range]

/-- A range from before the row to the row itself. -/
theorem brackets_performAll_forward :
    ∃ partition : Partition,
      (empty.performAll (rowAndRange ⟨[[0x61]], [[0x62]], ⟨5, 1⟩⟩)).partition? (.ofBytes [0x6b]) =
        some partition ∧ partition.Brackets [⟨[[0x61]], [[0x62]], ⟨5, 1⟩⟩] := by
  refine ⟨_, rfl, ?_⟩
  exact @brackets_performAll (rowAndRange ⟨[[0x61]], [[0x62]], ⟨5, 1⟩⟩) (.ofBytes [0x6b]) _ rfl

/-- A range that runs backwards around a row is closed before the row and opened behind it. -/
theorem unbracketed_of_backward :
    ∃ (partition : Partition) (front back : List Element) (row : Row),
      (empty.performAll (rowAndRange ⟨[[0x63]], [[0x61]], ⟨5, 1⟩⟩)).partition? (.ofBytes [0x6b]) =
        some partition ∧
      partition.elements = front ++ .row row :: back ∧
      (rangesOf (sinceClear (rowAndRange ⟨[[0x63]], [[0x61]], ⟨5, 1⟩⟩)) (.ofBytes [0x6b])).countP
        (·.covers row.clustering) = 0 ∧
      openings front = 0 ∧ closings front = 1 := by
  let range : DeletedRange := ⟨[[0x63]], [[0x61]], ⟨5, 1⟩⟩
  let row : Row := .ofCells [[0x62]] .live [⟨"v", 1, some [0x78]⟩]
  have sorted : [range.opening, range.closing, .row row].mergeSort Element.notAfter =
      [range.closing, .row row, range.opening] := by
    have opening : range.opening.notAfter range.closing = false := by decide
    have before : range.opening.notAfter (.row row) = false := by decide
    have behind : range.closing.notAfter (.row row) = true := by decide
    simp [List.mergeSort, List.MergeSort.Internal.splitInTwo, opening, before, behind]
  exact ⟨_, [range.closing], [range.opening], row, rfl, sorted, rfl, rfl, rfl⟩

end Memtable

end SortedTable

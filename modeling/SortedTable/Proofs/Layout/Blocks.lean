import SortedTable.Proofs.BlockIndex.Cut
import SortedTable.Proofs.Layout.Sizes
import SortedTable.Proofs.Writer.Script

namespace SortedTable

namespace Element

/-- Reads an element from the body of a unit. -/
def decode (offset : UInt64) (kind : UInt8) (body : Bytes) : Except TableError Element :=
  if kind = rowKind then (Row.decode body).map .row
  else if kind = markerKind then (Marker.decode body).map .marker
  else .error (.corrupt (.unexpectedKind kind offset))

/-- Reads a unit with an element of any size. -/
def decodeUnit (offset : UInt64) : Decoder TableError Element := do
  let kind ← Decoder.word8
  let length ← Decoder.little 4
  let expected ← Decoder.word32
  let body ← Decoder.take length
  if Checksum.crc32 body = expected then fun rest => (decode offset kind body).map (·, rest)
  else Decoder.fail (.checksumMismatch offset expected (Checksum.crc32 body))

theorem decode_of_encode {element : Element} {kind : UInt8} {body : Bytes}
    (encodes : element.encode = .ok (kind, body)) (offset : UInt64) :
    decode offset kind body = .ok element := by
  cases element with
  | row content =>
      obtain ⟨_, encoded, same⟩ := Except.map_eq_ok_iff.1 encodes
      cases same
      simp [decode, Row.decode_of_encode encoded, Except.map]
  | marker content =>
      obtain ⟨_, encoded, same⟩ := Except.map_eq_ok_iff.1 encodes
      cases same
      simp [decode, Marker.decode_of_encode encoded, Except.map, markerKind, rowKind]

/-- The unit of an element is read back as the element, whatever its size is. -/
theorem reads_of_ofElement {element : Element} {encoded : EncodedElement}
    (written : EncodedElement.ofElement element = .ok encoded) (offset : UInt64) :
    Decoder.Reads (decodeUnit offset) encoded.fields.flatten element := by
  obtain ⟨kind, body, encodes, framed, -, -⟩ := EncodedElement.ofElement_eq_ok written
  obtain ⟨length, prefixed, same⟩ := Except.map_eq_ok_iff.1 framed
  obtain ⟨small, rfl⟩ := lengthPrefix_eq_ok_iff.1 prefixed
  have whole : encoded.fields.flatten = [kind] ++ (Bytes.littleEndian 4 body.length ++
      (Bytes.word32 (Checksum.crc32 body) ++ body)) := by
    simp [← same]
  rw [whole]
  refine (Decoder.Reads.word8 kind).bind ((Decoder.Reads.little small).bind
    ((Decoder.Reads.word32 _).bind ((Decoder.Reads.take rfl).bindPure ?_)))
  rw [if_pos rfl]
  funext rest
  rw [decode_of_encode encodes]
  rfl

end Element

namespace EncodedElement

/-- The bytes of units. -/
def bytes (encoded : List EncodedElement) : Bytes := (encoded.flatMap fields).flatten

@[simp] theorem bytes_nil : bytes [] = [] := rfl

@[simp] theorem bytes_append (encoded others : List EncodedElement) :
    bytes (encoded ++ others) = bytes encoded ++ bytes others := by
  simp [bytes]

@[simp] theorem bytes_cons (encoded : EncodedElement) (others : List EncodedElement) :
    bytes (encoded :: others) = encoded.fields.flatten ++ bytes others := by
  simp [bytes]

/-- Where units lie that start at `position`. -/
def spans (position : UInt64) : List EncodedElement → List Span
  | [] => []
  | encoded :: rest =>
      ⟨encoded.element.clustering, position, position + encoded.size⟩ ::
        spans (position + encoded.size) rest

/-- The blocks of a partition are those of an index to which its units were added where they lie. -/
theorem blocks_eq_addAll {index : BlockIndex} {position : UInt64} {encoded : List EncodedElement}
    {blocks : List Block} (cut : EncodedElement.blocks index position encoded = .ok blocks) :
    ∃ stop, Span.Cover position (spans position encoded) stop ∧
      (index.addAll (spans position encoded) >>= fun index => index.blocks stop) = .ok blocks := by
  induction encoded generalizing index position with
  | nil => exact ⟨position, .nil position, cut⟩
  | cons first rest rec =>
      obtain ⟨stop, place, cut⟩ := Except.bind_eq_ok_iff.1 cut
      obtain ⟨next, added, cut⟩ := Except.bind_eq_ok_iff.1 cut
      have sum := toNat_of_exactSum place
      have small := stop.toNat_lt
      obtain rfl : position + first.size = stop := by
        apply UInt64.toNat_inj.1
        rw [UInt64.toNat_add]
        omega
      obtain ⟨last, cover, blocks⟩ := rec cut
      have forward : position ≤ position + first.size := by
        rw [UInt64.le_iff_toNat_le]
        omega
      refine ⟨last, Span.Cover.cons_iff.2 ⟨rfl, forward, cover⟩, ?_⟩
      rw [spans, BlockIndex.addAll_cons]
      dsimp only
      rw [added]
      exact blocks

/-- Every unit has the size that its element was given. -/
def Measured (encoded : List EncodedElement) : Prop :=
  ∀ one ∈ encoded, one.fields.flatten.length = one.size.toNat

/-- Units lie on as many bytes as they have. -/
theorem toNat_of_cover {position stop : UInt64} {encoded : List EncodedElement}
    (measured : Measured encoded) (cover : Span.Cover position (spans position encoded) stop) :
    stop.toNat = position.toNat + (bytes encoded).length := by
  induction encoded generalizing position with
  | nil =>
      rw [Span.Cover.nil_iff.1 cover]
      rfl
  | cons first rest rec =>
      obtain ⟨-, forward, behind⟩ := Span.Cover.cons_iff.1 cover
      have size := measured first List.mem_cons_self
      have last := rec (fun one member => measured one (List.mem_cons_of_mem _ member)) behind
      have sum := UInt64.toNat_add position first.size
      rw [UInt64.le_iff_toNat_le] at forward
      have small := first.size.toNat_lt
      have small' := position.toNat_lt
      dsimp only at forward last
      rw [bytes_cons, List.length_append]
      omega

/-- Where there is room for units, they lie one behind the other and the blocks of their index cover
them. -/
theorem exists_cover {position : UInt64} {encoded : List EncodedElement} (measured : Measured encoded)
    (room : position.toNat + (bytes encoded).length < UInt64.size) :
    ∃ stop, Span.Cover position (spans position encoded) stop ∧
      ∀ index : BlockIndex, EncodedElement.blocks index position encoded =
        index.addAll (spans position encoded) >>= fun index => index.blocks stop := by
  induction encoded generalizing position with
  | nil => exact ⟨position, .nil position, fun _ => rfl⟩
  | cons first rest rec =>
      have size := measured first List.mem_cons_self
      rw [bytes_cons, List.length_append] at room
      have place := exactSum_of_lt (show position.toNat + first.size.toNat < UInt64.size by omega)
      have sum := toNat_of_exactSum place
      obtain ⟨stop, cover, blocks⟩ := rec (fun one member => measured one (List.mem_cons_of_mem _ member))
        (show (position + first.size).toNat + (bytes rest).length < UInt64.size by omega)
      have forward : position ≤ position + first.size := by
        rw [UInt64.le_iff_toNat_le]
        omega
      refine ⟨stop, Span.Cover.cons_iff.2 ⟨rfl, forward, cover⟩, fun index => ?_⟩
      rw [EncodedElement.blocks, place, Except.ok_bind, spans, BlockIndex.addAll_cons]
      dsimp only
      cases index.add first.element.clustering position (position + first.size) with
      | error cause => rfl
      | ok next => exact blocks next

/-- Units that lie where two lists of spans say come in two parts. -/
theorem exists_of_spans_eq_append {position stop : UInt64} {encoded : List EncodedElement}
    {front back : List Span} (cover : Span.Cover position (spans position encoded) stop)
    (split : spans position encoded = front ++ back) :
    ∃ one other middle, encoded = one ++ other ∧ spans position one = front ∧
      spans middle other = back ∧ Span.Cover position front middle ∧
      Span.Cover middle back stop := by
  induction front generalizing position encoded with
  | nil =>
      rw [split] at cover
      exact ⟨[], encoded, position, rfl, rfl, split, .nil position, cover⟩
  | cons span front rec =>
      cases encoded with
      | nil => cases split
      | cons first rest =>
          obtain ⟨rfl, further⟩ := List.cons.inj split
          obtain ⟨begins, forward, behind⟩ := Span.Cover.cons_iff.1 cover
          obtain ⟨one, other, middle, rfl, before, after, covers, cover'⟩ := rec behind further
          refine ⟨first :: one, other, middle, rfl, ?_, after, ?_, cover'⟩
          · rw [spans, before]
          · exact Span.Cover.cons_iff.2 ⟨begins, forward, covers⟩

@[simp] theorem length_spans (position : UInt64) (encoded : List EncodedElement) :
    (spans position encoded).length = encoded.length := by
  induction encoded generalizing position with
  | nil => rfl
  | cons first rest rec => simp [spans, rec]

theorem map_clustering_spans (position : UInt64) (encoded : List EncodedElement) :
    (spans position encoded).map Span.clustering =
      encoded.map fun one => one.element.clustering := by
  induction encoded generalizing position with
  | nil => rfl
  | cons first rest rec => simp [spans, rec]

/-- Units of which all but the last are shorter than a size. -/
theorem length_lt_of_short {start stop : UInt64} {encoded : List EncodedElement} {run : Run}
    {size count : Nat} (measured : Measured encoded)
    (cover : Span.Cover start (spans start encoded) stop) (same : spans start encoded = run.spans)
    (short : ∀ front, run.front? = some front → front.extent < size) (positive : 0 < size)
    (below : count < encoded.length) : (bytes (encoded.take count)).length < size := by
  cases held : run.front? with
  | none =>
      have single := congrArg List.length same
      rw [length_spans, Run.spans, Run.more_of_front? held, List.length_singleton] at single
      obtain rfl : count = 0 := by omega
      exact positive
  | some front =>
      rw [Run.spans_of_front? held] at same
      obtain ⟨one, other, middle, rfl, before, after, covers, -⟩ := exists_of_spans_eq_append cover same
      obtain ⟨begins, ends⟩ := Run.ends_of_cover covers
      have extent := short front held
      have length := toNat_of_cover (fun unit member => measured unit (List.mem_append_left _ member))
        (before ▸ covers)
      have last : other.length = 1 := by rw [← length_spans middle other, after, List.length_singleton]
      have within : count ≤ one.length := by
        rw [List.length_append] at below
        omega
      have part : (bytes (one.take count)).length ≤ (bytes one).length := by
        rw [← List.take_append_drop count one, bytes_append]
        simp
      rw [Run.extent, begins, ends] at extent
      rw [List.take_append_of_le_length within]
      omega

/-- Blocks that lie one behind the other from `offset` on, each over a group of units. -/
inductive PointsAt : Nat → List Block → List (List EncodedElement) → Prop
  | nil (offset : Nat) : PointsAt offset [] []
  | cons {offset : Nat} {block : Block} {group : List EncodedElement} {blocks : List Block}
      {groups : List (List EncodedElement)} (begins : block.offset.toNat = offset)
      (extends' : block.width.toNat = (bytes group).length)
      (first : group.head?.map (fun encoded => encoded.element.clustering) = some block.first)
      (last : group.getLast?.map (fun encoded => encoded.element.clustering) = some block.last)
      (rest : PointsAt (offset + (bytes group).length) blocks groups) :
      PointsAt offset (block :: blocks) (group :: groups)

/-- The blocks of runs point at the units that the runs are made of. -/
theorem exists_pointsAt {start position stop : UInt64} {runs : List Run}
    {encoded : List EncodedElement} (measured : Measured encoded) (behind : start ≤ position)
    (cover : Span.Cover position (spans position encoded) stop)
    (split : spans position encoded = runs.flatMap Run.spans) :
    ∃ groups, groups.flatten = encoded ∧
      PointsAt (position.toNat - start.toNat) (runs.map (Run.block · start)) groups := by
  induction runs generalizing position encoded with
  | nil =>
      cases encoded with
      | nil => exact ⟨[], rfl, .nil _⟩
      | cons first rest => cases split
  | cons run runs rec =>
      obtain ⟨one, other, middle, rfl, same, after, covers, cover'⟩ :=
        exists_of_spans_eq_append cover split
      obtain ⟨begins, ends⟩ := Run.ends_of_cover covers
      have forward := covers.start_le
      have length := toNat_of_cover (fun unit member => measured unit (List.mem_append_left _ member))
        (same ▸ covers)
      obtain ⟨groups, rfl, points⟩ :=
        rec (fun unit member => measured unit (List.mem_append_right _ member))
          (UInt64.le_trans behind forward) (after ▸ cover') after
      have clusterings : run.spans.map Span.clustering =
          one.map fun unit => unit.element.clustering := by
        rw [← same, map_clustering_spans]
      rw [UInt64.le_iff_toNat_le] at behind
      refine ⟨one :: groups, rfl, .cons ?_ ?_ ?_ ?_ ?_⟩
      · change (run.first.start - start).toNat = _
        rw [begins, UInt64.toNat_sub_of_le _ _ (UInt64.le_iff_toNat_le.2 behind)]
      · change (run.last.stop - run.first.start).toNat = _
        rw [begins, ends, UInt64.toNat_sub_of_le _ _ forward]
        omega
      · rw [← List.head?_map, ← clusterings, List.head?_map, Run.head?_spans]
        rfl
      · rw [← List.getLast?_map, ← clusterings, List.getLast?_map, Run.getLast?_spans]
        rfl
      · have further : position.toNat - start.toNat + (bytes one).length =
            middle.toNat - start.toNat := by omega
        rw [further]
        exact points

end EncodedElement

/-- A block is read back as a run of elements, and begins and ends with their clusterings. -/
structure Block.Holds (block : Block) (data : Bytes) (position : UInt64) (run : List Element) :
    Prop where
  first : run.head?.map Element.clustering = some block.first
  last : run.getLast?.map Element.clustering = some block.last
  inside : position.toNat + block.offset.toNat + block.width.toNat < data.length
  units : Decoder.many (Element.decodeUnit position) run.length
    ((data.drop (position.toNat + block.offset.toNat)).take block.width.toNat) = .ok (run, [])
  read : (∀ element ∈ run, ∀ kind body, element.encode = .ok (kind, body) →
      body.length ≤ maxUnitBytes) → data.length < UInt64.size →
    Units.decode false false (position + block.offset) {}
      ((data.drop (position.toNat + block.offset.toNat)).take block.width.toNat ++ endMark) =
        .ok (⟨none, run.reverse⟩, [])

namespace EncodedElement

/-- The elements of units. -/
def elements (encoded : List EncodedElement) : List Element := encoded.map EncodedElement.element

/-- Units that are what was encoded of their elements. -/
def Faithful (encoded : List EncodedElement) : Prop :=
  ∀ one ∈ encoded, ofElement one.element = .ok one

theorem Faithful.measured {encoded : List EncodedElement} (faithful : Faithful encoded) :
    Measured encoded :=
  fun one member => length_of_ofElement (faithful one member)

theorem Faithful.forall₂ {encoded : List EncodedElement} (faithful : Faithful encoded) :
    List.Forall₂ (fun element unit => ofElement element = .ok unit) (elements encoded) encoded := by
  rw [elements, List.forall₂_map_left_iff]
  exact List.forall₂_same.2 faithful

/-- Units are read back as their elements. -/
theorem Faithful.reads {encoded : List EncodedElement} (faithful : Faithful encoded)
    (offset : UInt64) : Decoder.Reads
      (Decoder.many (Element.decodeUnit offset) (elements encoded).length)
      (bytes encoded) (elements encoded) := by
  rw [bytes, List.flatMap_def, List.flatten_flatten, List.map_map]
  apply Decoder.Reads.many rfl
  rw [elements, List.forall₂_map_left_iff, List.forall₂_map_right_iff]
  exact List.forall₂_same.2 fun one member => Element.reads_of_ofElement (faithful one member) offset

/-- Blocks hold the elements of the units that they point at. -/
theorem PointsAt.holds {offset : Nat} {blocks : List Block} {groups : List (List EncodedElement)}
    (points : PointsAt offset blocks groups) (faithful : Faithful groups.flatten) {data rest : Bytes}
    {position : UInt64}
    (there : data.drop (position.toNat + offset) = bytes groups.flatten ++ rest) (more : rest ≠ []) :
    List.Forall₂ (fun block run => block.Holds data position run) blocks (groups.map elements) := by
  induction points with
  | nil => exact .nil
  | @cons offset block group blocks groups begins extends' first last points rec =>
      rw [List.flatten_cons, bytes_append, List.append_assoc] at there
      have behind : data.drop (position.toNat + (offset + (bytes group).length)) =
          bytes groups.flatten ++ rest := by
        rw [← Nat.add_assoc, ← List.drop_drop, there, List.drop_left]
      have taken : (data.drop (position.toNat + block.offset.toNat)).take block.width.toNat =
          bytes group := by
        rw [begins, extends', there, List.take_left]
      have own : Faithful group := fun one member => faithful one (List.mem_append_left _ member)
      have others : Faithful groups.flatten :=
        fun one member => faithful one (List.mem_append_right _ member)
      have size := congrArg List.length there
      rw [List.length_drop, List.length_append, List.length_append] at size
      have positive := List.length_pos_iff.2 more
      have inside : position.toNat + block.offset.toNat + block.width.toNat < data.length := by
        omega
      refine .cons ⟨?_, ?_, inside, ?_, ?_⟩ (rec others behind)
      · rw [elements, List.head?_map, Option.map_map]
        exact first
      · rw [elements, List.getLast?_map, Option.map_map]
        exact last
      · have read := own.reads position []
        rw [List.append_nil] at read
        rw [taken, read]
      · intro fits room
        have word : UInt64.size = 2 ^ 64 := rfl
        have sum : (position + block.offset).toNat = position.toNat + block.offset.toNat := by
          rw [UInt64.toNat_add]
          exact Nat.mod_eq_of_lt (by omega)
        have decoded := Units.decode_elements own.forall₂ fits false false (position + block.offset) {}
          [] (by rw [sum]; change _ + (bytes group).length < _; omega)
        rw [List.append_nil, List.append_nil] at decoded
        rw [taken]
        exact decoded

/-- The first block begins in front of all units. -/
theorem PointsAt.begins {offset : Nat} {blocks : List Block} {groups : List (List EncodedElement)}
    (points : PointsAt offset blocks groups) :
    ∀ block, blocks.head? = some block → block.offset.toNat = offset := by
  cases points with
  | nil => exact nofun
  | cons begins =>
      rintro block ⟨⟩
      exact begins

/-- Every block ends where the next one begins. -/
theorem PointsAt.isChain {offset : Nat} {blocks : List Block} {groups : List (List EncodedElement)}
    (points : PointsAt offset blocks groups) :
    blocks.IsChain fun one next => one.offset.toNat + one.width.toNat = next.offset.toNat := by
  induction points with
  | nil => exact .nil
  | @cons offset block group blocks groups begins extends' _ _ points rec =>
      cases points with
      | nil => exact .singleton _
      | cons begins' _ _ _ _ => exact .cons_cons (by omega) rec

/-- The last block ends behind all units. -/
theorem PointsAt.ends {offset : Nat} {blocks : List Block} {groups : List (List EncodedElement)}
    (points : PointsAt offset blocks groups) : ∀ block, blocks.getLast? = some block →
      block.offset.toNat + block.width.toNat = offset + (bytes groups.flatten).length := by
  induction points with
  | nil => exact nofun
  | @cons offset block group blocks groups begins extends' _ _ points rec =>
      intro last held
      rw [List.flatten_cons, bytes_append, List.length_append]
      cases points with
      | nil =>
          obtain rfl : block = last := by simpa using held
          rw [List.flatten_nil, bytes_nil, List.length_nil]
          omega
      | cons =>
          rw [List.getLast?_cons_cons] at held
          have behind := rec last held
          omega

end EncodedElement

namespace Partition

variable {partition : Partition} {blockSize : UInt64} {position : Position}

/-- The units of a partition are what was encoded of its elements. -/
theorem Encoding.faithful (encoding : partition.Encoding) :
    EncodedElement.Faithful encoding.elements ∧
      EncodedElement.elements encoding.elements = partition.elements := by
  have written := encoding.elements_eq
  generalize encoding.elements = encoded at written ⊢
  generalize partition.elements = elements at written ⊢
  induction written with
  | nil => exact ⟨nofun, rfl⟩
  | @cons element unit elements encoded one _ rec =>
      obtain ⟨-, -, -, -, rfl, -⟩ := EncodedElement.ofElement_eq_ok one
      exact ⟨List.forall_mem_cons.2 ⟨one, rec.1⟩, congrArg (_ :: ·) rec.2⟩

/-- The bytes of a partition in front of its elements. -/
def Encoding.front (encoding : partition.Encoding) : Bytes :=
  encoding.header.flatten ++ encoding.staticRow.flatten

theorem Encoding.bytes_eq (encoding : partition.Encoding) :
    encoding.bytes = encoding.front ++ (EncodedElement.bytes encoding.elements ++ endMark) := by
  simp [bytes, front, EncodedElement.bytes]

/-- The blocks of a partition that can be encoded are cut wherever there is room for it. -/
theorem Encoding.exists_blocks (encoding : partition.Encoding) (blockSize : UInt64) {start : UInt64}
    (room : start.toNat + encoding.bytes.length < UInt64.size) :
    ∃ blocks, partition.blocks blockSize start encoding.elements = .ok blocks := by
  obtain ⟨sizeHeader, sizeStatic⟩ := encoding.length_front
  rw [encoding.bytes_eq, front] at room
  simp only [List.length_append] at room
  have first := exactSum_of_lt
    (show start.toNat + (headerSize partition.key).toNat < UInt64.size by omega)
  have place := toNat_of_exactSum first
  have second := exactSum_of_lt (show (start + headerSize partition.key).toNat +
    (partition.writtenStaticRow.elim 0 Row.staticSize).toNat < UInt64.size by omega)
  have place' := toNat_of_exactSum second
  have begins : partition.elementsStart start = .ok _ :=
    Except.bind_eq_ok_iff.2 ⟨_, first, second⟩
  obtain ⟨stop, cover, blocks⟩ := EncodedElement.exists_cover encoding.faithful.1.measured
    (show (start + headerSize partition.key +
      partition.writtenStaticRow.elim 0 Row.staticSize).toNat +
        (EncodedElement.bytes encoding.elements).length < UInt64.size by omega)
  have behind : start ≤ start + headerSize partition.key +
      partition.writtenStaticRow.elim 0 Row.staticSize := by
    rw [UInt64.le_iff_toNat_le]
    omega
  have grows : (BlockIndex.start start blockSize).Grows none _ := ⟨rfl, behind, nofun⟩
  have cut := (blocks (.start start blockSize)).trans (BlockIndex.blocks_addAll grows cover)
  exact ⟨_, Except.bind_eq_ok_iff.2 ⟨_, begins, cut⟩⟩

/-- The blocks of a partition are those of the cut of its units. -/
theorem Written.exists_cut (written : partition.Written blockSize position) :
    ∃ start stop : UInt64, start.toNat = position.data.toNat + written.encoding.front.length ∧
      Span.Cover start (EncodedElement.spans start written.encoding.elements) stop ∧
      written.blocks = BlockIndex.several ((Span.cut
        (BlockIndex.start position.data blockSize).blockSize.toNat none
          (EncodedElement.spans start written.encoding.elements)).map (Run.block · position.data)) := by
  obtain ⟨start, begins, cut⟩ := Except.bind_eq_ok_iff.1 written.blocks_eq
  have place := written.encoding.toNat_elementsStart begins
  obtain ⟨stop, cover, blocks⟩ := EncodedElement.blocks_eq_addAll cut
  have behind : position.data ≤ start := by
    rw [UInt64.le_iff_toNat_le]
    omega
  have grows : (BlockIndex.start position.data blockSize).Grows none start := ⟨rfl, behind, nofun⟩
  have cuts := blocks.symm.trans (BlockIndex.blocks_addAll grows cover)
  refine ⟨start, stop, ?_, cover, Except.ok.inj cuts⟩
  rw [Encoding.front, List.length_append, place]

/-- Blocks lie over all units of a partition, one group for each, behind what is in front of them. -/
theorem Written.exists_pointsAt (written : partition.Written blockSize position)
    (indexed : written.blocks ≠ []) :
    2 ≤ written.blocks.length ∧ ∃ groups : List (List EncodedElement),
      groups.flatten = written.encoding.elements ∧
        EncodedElement.PointsAt written.encoding.front.length written.blocks groups := by
  obtain ⟨start, stop, place, cover, blocks⟩ := written.exists_cut
  have measured := written.encoding.faithful.1.measured
  have behind : position.data ≤ start := by
    rw [UInt64.le_iff_toNat_le]
    omega
  obtain ⟨groups, same, points⟩ := EncodedElement.exists_pointsAt measured behind cover
    (Span.flatMap_cut _ none _).symm
  rw [BlockIndex.several] at blocks
  split at blocks
  · exact absurd blocks indexed
  · rename_i many
    have offset : start.toNat - position.data.toNat = written.encoding.front.length := by omega
    rw [offset, ← blocks] at points
    exact ⟨by rw [blocks]; omega, groups, same, points⟩

/-- Without blocks no unit but the last reaches the size of a block. -/
theorem Written.short_of_blocks_eq_nil (written : partition.Written blockSize position)
    (positive : 0 < blockSize.toNat) (unindexed : written.blocks = []) :
    ∀ count < written.encoding.elements.length,
      (EncodedElement.bytes (written.encoding.elements.take count)).length < blockSize.toNat := by
  intro count below
  obtain ⟨start, stop, -, cover, blocks⟩ := written.exists_cut
  have measured := written.encoding.faithful.1.measured
  have nonzero : blockSize ≠ 0 := by
    rintro rfl
    exact absurd positive (by decide)
  have size : (BlockIndex.start position.data blockSize).blockSize = blockSize := if_neg nonzero
  rw [size, unindexed] at blocks
  have few := BlockIndex.length_le_of_several blocks.symm
  rw [List.length_map] at few
  generalize written.encoding.elements = encoded at *
  have whole := Span.flatMap_cut blockSize.toNat none (EncodedElement.spans start encoded)
  have greedy : Span.IsGreedy blockSize.toNat
      (Span.cut blockSize.toNat none (EncodedElement.spans start encoded)) :=
    Span.isGreedy_cut _ nofun
  generalize Span.cut blockSize.toNat none (EncodedElement.spans start encoded) = runs at *
  cases runs with
  | nil =>
      have length := congrArg List.length whole
      simp at length
      omega
  | cons run others =>
      obtain rfl : others = [] := by simpa using few
      have same : EncodedElement.spans start encoded = run.spans := by simpa using whole.symm
      exact EncodedElement.length_lt_of_short measured cover same (greedy.short run (by simp))
        positive below

end Partition

end SortedTable

import SortedTable.Proofs.RoundTrip
import SortedTable.Proofs.Writer.Acceptance

namespace SortedTable

/-- Every partition that a writer accepted got an index that is no larger than a reader accepts. -/
def WriterRun.IndexesFit (run : WriterRun) (blockSize : UInt64) : Prop :=
  ∀ attempt ∈ run.attempts, ∀ position, attempt.answer = .ok (some position) →
    attempt.partition.IndexFits blockSize position

/-- A committed table is opened unless an index in it is too large, and refuses the units that are. -/
theorem WriterPlan.load_of_sizes (plan : WriterPlan) (partitions : List Partition)
    (conclusion : Conclusion) (store : Store)
    (keeps : ∀ component, (plan.medium.sink component).keeps = true)
    (vacant : plan.descriptor.IsVacant (plan.site store))
    (committed : (plan.run partitions conclusion store).IsCommitted) :
    let run := plan.run partitions conclusion store
    (run.IndexesFit plan.settings.blockSize →
      ∃ reader, Reader.load run.store.disk plan.descriptor = .ok reader ∧
        ∀ attempt ∈ run.attempts, ∀ position, attempt.answer = .ok (some position) →
          if attempt.partition.UnitsFit then
            reader.Returns run.store.disk attempt.partition position
          else ∃ length place, maxUnitBytes < length ∧
            reader.partition? run.store.disk attempt.partition.key =
              .error (.corrupt (.unitTooLarge length place))) ∧
    (¬ run.IndexesFit plan.settings.blockSize →
      ∃ length, maxPromotedBytes < length ∧ Reader.load run.store.disk plan.descriptor =
        .error (.corrupt (.promotedIndexTooLarge length))) := by
  obtain ⟨opened, committed⟩ := committed
  obtain ⟨placed, folder, progress, stage, data, index, fields, places, ended, gathers, laid,
    encoded, shows', -⟩ := placed_of_committed vacant committed
  dsimp only
  rw [WriterRun.IndexesFit, ← places.entries_iff, ended, Store.disk_deliver]
  refine ⟨fun entries => ?_, fun large =>
    Reader.load_of_large keeps gathers laid large encoded shows'⟩
  obtain ⟨reader, lists, opens⟩ :=
    Reader.ofParts_of_follows keeps gathers laid entries shows'.toFollows
  refine ⟨reader, ?_, fun attempt present position answer => ?_⟩
  · rw [Reader.load_eq_of_shows keeps gathers.readable encoded shows', opens]
    rfl
  · obtain ⟨one, member, same, rfl⟩ := places.exists_placed present answer
    rw [← same]
    split
    · rename_i fits
      exact lists.returns member fits
    · rename_i large
      obtain ⟨length, place, exceeds, refused⟩ := lists.partitionAt_of_large member large
      exact ⟨length, place, exceeds, by rw [lists.partition?_eq_partitionAt member, refused]; rfl⟩

/-- Both partitions of a table without large units and indexes are read back. -/
theorem WriterPlan.load_of_sizes_triple :
    ∃ reader, Reader.load (unfiltered.run Partition.triple .finish ⟨.empty, []⟩).store.disk
        unfiltered.descriptor = .ok reader ∧
      ∃ attempt ∈ (unfiltered.run Partition.triple .finish ⟨.empty, []⟩).attempts, ∃ position,
        attempt.answer = .ok (some position) ∧
        reader.Returns (unfiltered.run Partition.triple .finish ⟨.empty, []⟩).store.disk
          attempt.partition position := by
  have vacant : unfiltered.descriptor.IsVacant (unfiltered.site ⟨.empty, []⟩) :=
    Descriptor.isVacant_of_names (by decide +kernel)
  obtain ⟨committed, single, found, fits⟩ :
      let run := unfiltered.run Partition.triple .finish ⟨.empty, []⟩
      run.IsCommitted ∧ (∀ attempt ∈ run.attempts, attempt.partition.elements.length ≤ 1) ∧
        (run.attempts[2]?.map fun attempt => attempt.answer.toOption) = some (some (some ⟨123, 15⟩)) ∧
        ∀ attempt ∈ run.attempts, attempt.partition.UnitsFit := by
    decide +kernel
  obtain ⟨reader, loaded, returned⟩ := (load_of_sizes unfiltered Partition.triple .finish
    ⟨.empty, []⟩ (fun _ => rfl) vacant committed).1 fun attempt member position _ =>
      Partition.indexFits_of_single (single attempt member) _ position
  obtain ⟨attempt, held, answer⟩ := Option.map_eq_some_iff.1 found
  have member := List.mem_of_getElem? held
  have accepted := Except.toOption_eq_some_iff.1 answer
  have read := returned attempt member _ accepted
  rw [if_pos (fits attempt member)] at read
  exact ⟨reader, loaded, attempt, member, _, accepted, read⟩

/-- A body that fits behind its length is framed as a unit. -/
theorem exists_unitFields {body : Bytes} (small : body.length < Bytes.limit 4) (kind : UInt8) :
    ∃ fields, unitFields kind body = .ok fields ∧ fields.flatten.length = body.length + 9 := by
  have prefixed : lengthPrefix .unitBody 4 body.length = .ok (Bytes.littleEndian 4 body.length) :=
    lengthPrefix_eq_ok_iff.2 ⟨small, rfl⟩
  refine ⟨_, Except.map_eq_ok_iff.2 ⟨_, prefixed, rfl⟩, ?_⟩
  simp only [List.flatten_cons, List.flatten_nil, List.length_append, List.length_singleton,
    Bytes.length_littleEndian, Bytes.length_word32, List.length_nil]
  omega

/-- A clustering of a single value is encoded if the value fits behind its length. -/
theorem Clustering.exists_encode {value : Bytes} (small : value.length < Bytes.limit 4) :
    ∃ encoded, Clustering.encode [value] = .ok encoded ∧ encoded.length = value.length + 6 := by
  have one : 1 < Bytes.limit 2 := by decide
  have single : withLength .clusteringValue 4 value =
      .ok (Bytes.littleEndian 4 value.length ++ value) :=
    Except.map_eq_ok_iff.2 ⟨_, lengthPrefix_eq_ok_iff.2 ⟨small, rfl⟩, rfl⟩
  refine ⟨_, Except.bind_eq_ok_iff.2 ⟨_, lengthPrefix_eq_ok_iff.2 ⟨one, rfl⟩,
    Except.bind_eq_ok_iff.2 ⟨_, Except.mapM_eq_ok_iff.2 (.cons single .nil), rfl⟩⟩, ?_⟩
  simp only [List.length_append, List.flatten_cons, List.flatten_nil, List.length_nil,
    Bytes.length_littleEndian]
  omega

/-- A block at a single clustering holds the value of it twice. -/
theorem Block.exists_encode {value : Bytes} (small : value.length < Bytes.limit 4)
    (offset width : UInt64) : ∃ encoded,
      Block.encode ⟨[value], [value], offset, width⟩ = .ok encoded ∧
        encoded.length = 2 * value.length + 28 := by
  obtain ⟨bytes, placed, length⟩ := Clustering.exists_encode small
  refine ⟨_, Except.bind_eq_ok_iff.2 ⟨_, placed, Except.bind_eq_ok_iff.2 ⟨_, placed, rfl⟩⟩, ?_⟩
  simp only [List.length_append, Bytes.length_word64, length]
  omega

/-- Two blocks at the same clustering are encoded behind their number. -/
theorem Block.exists_encodeAll {value : Bytes} (small : value.length < Bytes.limit 4)
    (offset width offset' width' : UInt64) : ∃ promoted,
      encodeAll [⟨[value], [value], offset, width⟩, ⟨[value], [value], offset', width'⟩] =
        .ok promoted ∧ promoted.length = 4 * value.length + 60 := by
  obtain ⟨left, leftWritten, leftLength⟩ := exists_encode small offset width
  obtain ⟨right, rightWritten, rightLength⟩ := exists_encode small offset' width'
  have two : 2 < Bytes.limit 4 := by decide
  have counted : lengthPrefix .promotedIndex 4 2 = .ok (Bytes.littleEndian 4 2) :=
    lengthPrefix_eq_ok_iff.2 ⟨two, rfl⟩
  refine ⟨_, Except.bind_eq_ok_iff.2 ⟨_, counted, Except.bind_eq_ok_iff.2
    ⟨_, Except.mapM_eq_ok_iff.2 (.cons leftWritten (.cons rightWritten .nil)), rfl⟩⟩, ?_⟩
  simp only [List.flatten_cons, List.flatten_nil, List.length_append, List.length_nil,
    Bytes.length_littleEndian]
  omega

/-- The unit of a marker at a clustering of this size is larger than a reader accepts. -/
theorem Marker.exists_unit (marker : Marker) {value : Bytes}
    (single : marker.clustering = [value]) (size : value.length = maxUnitBytes) :
    ∃ body fields, (Element.marker marker).encode = .ok (markerKind, body) ∧
      maxUnitBytes < body.length ∧ fields.flatten.length = value.length + 28 ∧
      EncodedElement.ofElement (.marker marker) = .ok ⟨.marker marker, fields, 67108892⟩ := by
  have small : value.length + 19 < Bytes.limit 4 := by rw [size]; decide
  obtain ⟨encoded, written, length⟩ := Clustering.exists_encode (Nat.lt_of_add_right_lt small)
  rw [← single] at written
  have encodes : (Element.marker marker).encode =
      .ok (markerKind, boundCode marker.bound :: encoded ++ marker.deletion.encode) :=
    Except.map_eq_ok_iff.2 ⟨_, Except.bind_eq_ok_iff.2 ⟨_, written, rfl⟩, rfl⟩
  have total : (boundCode marker.bound :: encoded ++ marker.deletion.encode).length =
      value.length + 19 := by
    simp [length]
  have sum : unitSize (boundCode marker.bound :: encoded ++ marker.deletion.encode) = 67108892 := by
    rw [unitSize, total, size]
    decide
  obtain ⟨fields, framed, taken⟩ := exists_unitFields (total ▸ small) markerKind
  refine ⟨_, fields, encodes, ?_, by omega, ?_⟩
  · rw [total, size]
    decide
  · exact Except.bind_eq_ok_iff.2
      ⟨_, encodes, Except.bind_eq_ok_iff.2 ⟨_, framed, by rw [sum]; rfl⟩⟩

/-- A partition in which the range of a single clustering is deleted. -/
def Partition.struck (value : Bytes) : Partition where
  key := .ofBytes [0]
  elements := [.marker ⟨.opening, [value], ⟨7, 1⟩⟩, .marker ⟨.closing, [value], ⟨7, 1⟩⟩]

/-- With a block size of one byte each end of the range is a block of its own. -/
theorem Partition.blocks_struck {value : Bytes} (fields fields' : List Bytes) :
    (struck value).blocks 1 0
        [⟨.marker ⟨.opening, [value], ⟨7, 1⟩⟩, fields, 67108892⟩,
          ⟨.marker ⟨.closing, [value], ⟨7, 1⟩⟩, fields', 67108892⟩] =
      .ok [⟨[value], [value], 16, 67108892⟩, ⟨[value], [value], 67108908, 67108892⟩] := by
  have start : (struck value).elementsStart 0 = .ok 16 := by
    rw [elementsStart, struck, headerSize, Key.bytes_ofBytes]
    rfl
  rw [blocks, start]
  cbv

/-- Such a partition is written whole, with units and an index that are larger than a reader accepts. -/
theorem Partition.exists_written_struck {value : Bytes} (size : value.length = maxUnitBytes) :
    ∃ (written : (struck value).Written 1 ⟨0, 0⟩) (promoted : Bytes),
      Block.encodeAll written.blocks = .ok promoted ∧ promoted.length = 4 * value.length + 60 ∧
      written.encoding.bytes.length = 2 * value.length + 73 ∧
      written.entry.flatten.length = 4 * value.length + 75 := by
  obtain ⟨-, fields, -, -, length, opening⟩ :=
    Marker.exists_unit ⟨.opening, [value], ⟨7, 1⟩⟩ rfl size
  obtain ⟨-, fields', -, -, length', closing⟩ :=
    Marker.exists_unit ⟨.closing, [value], ⟨7, 1⟩⟩ rfl size
  have small : value.length < Bytes.limit 4 := by rw [size]; decide
  have small' : 4 * value.length + 60 < Bytes.limit 4 := by rw [size]; decide
  obtain ⟨promoted, encodes, total⟩ :=
    Block.exists_encodeAll small 16 67108892 67108908 67108892
  have one : (struck value).key.bytes.length = 1 := by
    rw [struck, Key.bytes_ofBytes]
    rfl
  have short : (struck value).key.bytes.length < Bytes.limit 2 := by rw [one]; decide
  have named := Key.fields_eq_ok_iff.2 ⟨short, rfl⟩
  have headed : headerFields (struck value).key .live false = .ok _ :=
    Except.map_eq_ok_iff.2 ⟨_, named, rfl⟩
  have sixteen : (headerSize (struck value).key).toNat = 16 := by
    rw [headerSize, one]
    rfl
  have prefixed : lengthPrefix .promotedIndex 4 promoted.length =
      .ok (Bytes.littleEndian 4 promoted.length) :=
    lengthPrefix_eq_ok_iff.2 ⟨total ▸ small', rfl⟩
  have entered : IndexEntry.fields (struck value).key ⟨0, [⟨[value], [value], 16, 67108892⟩,
      ⟨[value], [value], 67108908, 67108892⟩]⟩ = .ok _ :=
    Except.bind_eq_ok_iff.2 ⟨_, named, Except.bind_eq_ok_iff.2 ⟨_, liftIo_eq_ok_iff.2 encodes,
      Except.bind_eq_ok_iff.2 ⟨_, liftIo_eq_ok_iff.2 prefixed, rfl⟩⟩⟩
  refine ⟨⟨⟨_, [], _, headed, rfl, .cons opening (.cons closing .nil)⟩, _, _,
    blocks_struck fields fields', entered⟩, promoted, encodes, total, ?_, ?_⟩
  · rw [Encoding.bytes]
    dsimp only
    rw [List.length_append, length_of_headerFields headed, sixteen]
    simp [endMark, length, length']
    omega
  · simp [one, total]
    omega

/-- A plan for a table in whose partitions every element is a block. -/
def WriterPlan.blocky : WriterPlan :=
  { unfiltered with settings := { unfiltered.settings with blockSize := 1 } }

/-- A writer accepts a partition whose units and whose index are larger than a reader accepts. -/
theorem WriterPlan.accepts_struck :
    ∃ (writer next : Writer) (begun later : Store) (partition : Partition),
      Writer.build blocky ⟨.empty, []⟩ = (.ok writer, begun) ∧
      writer.append partition begun = (.ok (some ⟨0, 0⟩), next, later) ∧
      ¬ partition.UnitsFit ∧ ¬ partition.IndexFits blocky.settings.blockSize ⟨0, 0⟩ := by
  obtain ⟨value, size⟩ : ∃ value : Bytes, value.length = maxUnitBytes :=
    ⟨.replicate maxUnitBytes 0, List.length_replicate⟩
  obtain ⟨written, promoted, encodes, total, lengthData, lengthIndex⟩ :=
    Partition.exists_written_struck size
  have vacant : blocky.descriptor.IsVacant (blocky.site ⟨.empty, []⟩) :=
    Descriptor.isVacant_of_names (by decide +kernel)
  have ready : (Writer.build blocky ⟨.empty, []⟩).1.toOption.isSome = true := by decide +kernel
  obtain ⟨writer, found⟩ := Option.isSome_iff_exists.1 ready
  have built : Writer.build blocky ⟨.empty, []⟩ =
      (.ok writer, (Writer.build blocky ⟨.empty, []⟩).2) :=
    Prod.ext (Except.toOption_eq_some_iff.1 found) rfl
  have short : (Partition.struck value).key.bytes.length ≤ maxKeyBytes := by
    rw [Partition.struck, Key.bytes_ofBytes]
    decide
  have roomData : 2 * maxUnitBytes + 73 ≤ Stage.maxFileBytes := by decide
  have roomIndex : 4 * maxUnitBytes + 75 ≤ Stage.maxFileBytes := by decide
  obtain ⟨next, later, accepted⟩ := Writer.accepts_first vacant.isApart (fun _ => rfl) built short rfl
    written (by rwa [lengthData, size]) (by rwa [lengthIndex, size])
  refine ⟨writer, next, _, later, .struck value, built, accepted, fun fits => ?_, fun fits => ?_⟩
  · obtain ⟨body, fields, unit, large, -⟩ :=
      Marker.exists_unit ⟨.opening, [value], ⟨7, 1⟩⟩ rfl size
    exact Nat.not_le_of_lt large (fits.elements _ List.mem_cons_self _ _ unit)
  · have bound := fits _ _ promoted (EncodedElement.ofElements_eq_none_iff.2
      written.encoding.elements_eq) written.blocks_eq encodes
    rw [total, size] at bound
    exact absurd bound (by decide)

end SortedTable

import SortedTable.Proofs.Corruption
import SortedTable.Proofs.Decoder.Stable
import SortedTable.Proofs.Layout.Records

namespace SortedTable

open Decoder

variable {more : Bytes}

/-- A row is refused when its body goes on. -/
theorem Row.decode_append {body : Bytes} {row : Row} (read : decode body = .ok row)
    (some : more ≠ []) : decode (body ++ more) = .error (.corrupt (.bytesBehindRow more.length)) := by
  unfold decode at read
  split at read
  · cases read
  · rename_i found
    have longer := isStable_decodeFront body more _ _ found
    rw [List.nil_append] at longer
    rw [decode, longer]
    split
    · contradiction
    · rename_i empty same
      cases same
      exact absurd rfl some
    · rename_i same
      cases same
      rfl
  · cases read

/-- A marker is the same when its body goes on. -/
theorem Marker.decode_append {body : Bytes} {marker : Marker} (read : decode body = .ok marker)
    (more : Bytes) : decode (body ++ more) = .ok marker := by
  obtain ⟨⟨found, rest⟩, front, same⟩ := Except.map_eq_ok_iff.1 read
  cases same
  exact Except.map_eq_ok_iff.2 ⟨(found, rest ++ more), isStable_decodeFront body more _ _ front, rfl⟩

/-- Blocks are the same when more bytes stand behind them. -/
theorem Block.decodeAll_append {bytes : Bytes} {blocks : List Block}
    (read : decodeAll bytes = .ok blocks) (some : bytes ≠ []) (more : Bytes) :
    decodeAll (bytes ++ more) = .ok blocks := by
  have filled (other : Bytes) : (bytes ++ other).isEmpty = false := by simp [some]
  have stable : IsStable (do Decoder.many decode (← Decoder.little 4) : Decoder TableError _) :=
    .bind (.little 4) fun count => .many isStable_decode count
  unfold decodeAll at read ⊢
  rw [← List.append_nil bytes, filled [], if_neg Bool.false_ne_true, List.append_nil] at read
  rw [filled more, if_neg Bool.false_ne_true]
  obtain ⟨⟨found, rest⟩, front, same⟩ := Except.map_eq_ok_iff.1 read
  cases same
  exact Except.map_eq_ok_iff.2 ⟨(found, rest ++ more), stable bytes more _ _ front, rfl⟩

namespace Units

/-- A unit that is added at one place is added at every place. -/
theorem add_of_add {units added : Units} {announced first : Bool} {offset : UInt64} {kind : UInt8}
    {body : Bytes} (taken : units.add announced first offset kind body = .ok added) (other : UInt64) :
    units.add announced first other kind body = .ok added := by
  unfold add at taken ⊢
  split at taken
  · rwa [if_pos ‹_›]
  · rw [if_neg ‹_›]
    split at taken
    · rwa [if_pos ‹_›]
    · rw [if_neg ‹_›]
      split at taken
      · rwa [if_pos ‹_›]
      · cases taken

/-- A unit whose body goes on is only added if it is a marker, and then as before. -/
theorem add_append {units added : Units} {announced first : Bool} {offset : UInt64} {kind : UInt8}
    {body : Bytes} (taken : units.add announced first offset kind body = .ok added)
    (some : more ≠ []) (other : UInt64) :
    units.add announced first other kind (body ++ more) =
      if kind = markerKind then .ok added else .error (.corrupt (.bytesBehindRow more.length)) := by
  unfold add at taken ⊢
  split at taken
  · rename_i chosen
    simp only [Bool.and_eq_true, decide_eq_true_eq] at chosen
    obtain ⟨row, read, -⟩ := Except.map_eq_ok_iff.1 taken
    rw [if_pos (by simpa using chosen), Row.decode_append read some, if_neg (by rw [chosen.1]; decide)]
    rfl
  · rename_i later
    rw [if_neg later]
    split at taken
    · rename_i rowed
      obtain ⟨row, read, -⟩ := Except.map_eq_ok_iff.1 taken
      rw [if_pos rowed, Row.decode_append read some, if_neg (by rw [rowed]; decide)]
      rfl
    · rename_i unrowed
      split at taken
      · rename_i marked
        obtain ⟨marker, read, rfl⟩ := Except.map_eq_ok_iff.1 taken
        rw [if_neg unrowed, if_pos marked, if_pos marked, Marker.decode_append read]
        rfl
      · cases taken

/-- Units that are read are read in the same way at every other place with room for them. -/
theorem decode_of_decode {announced first : Bool} {offset : UInt64} {units result : Units}
    {bytes rest : Bytes} (read : decode announced first offset units bytes = .ok (result, rest))
    {other : UInt64} (room : other.toNat + bytes.length < UInt64.size) :
    decode announced first other units bytes = .ok (result, rest) := by
  fun_induction decode announced first offset units bytes generalizing other with
  | case1 => cases read
  | case2 first offset units behind =>
      cases read
      exact decode_endMark announced first other _ _
  | case3 => cases read
  | case4 => cases read
  | case5 => cases read
  | case6 first offset units kind behind live body behind' framed next place added taken ih =>
      obtain ⟨small, rfl⟩ := decodeBody_eq_ok framed
      let frame : Frame := ⟨kind, body, live, small⟩
      have again := (frame.decodeBody_around other rfl behind').trans (if_pos rfl)
      simp only [List.length_cons, List.length_append, Bytes.length_littleEndian,
        Bytes.length_word32] at room
      have place' : exactSum other (unitSize body) = .ok (other + unitSize body) :=
        exactSum_of_lt (by rw [toNat_unitSize small]; omega)
      have reached := toNat_of_exactSum place'
      rw [toNat_unitSize small] at reached
      rw [Frame.guard, List.append_assoc] at again
      rw [decode_unit live again place' (add_of_add taken other)]
      exact ih read (by omega)

/-- A unit of a size that a reader accepts is read if it has a place and can be added. -/
theorem decode_fields_eq {kind : UInt8} {body : Bytes} {fields : List Bytes} (live : kind ≠ endKind)
    (written : unitFields kind body = .ok fields) (small : body.length ≤ maxUnitBytes)
    (announced first : Bool) (offset : UInt64) (units : Units) (rest : Bytes) :
    decode announced first offset units (fields.flatten ++ rest) =
      match exactSum offset (unitSize body) with
      | .error cause => .error (.overflow cause)
      | .ok next =>
          match units.add announced first offset kind body with
          | .error error => .error error
          | .ok units => decode announced false next units rest := by
  obtain ⟨behind, front, -, reads⟩ := reads_of_unitFields written small offset
  rw [front, List.cons_append, decode, if_neg live]
  split
  · rename_i failed
    cases (reads rest).symm.trans failed
  · rename_i found
    cases (reads rest).symm.trans found
    rfl

section Surplus

variable {announced first : Bool} {offset : UInt64} {units result : Units} {frame : Frame}
  {back rest : Bytes} {fields : List Bytes}

/-- A unit that is no marker is refused when its body goes on. -/
theorem decode_append_row (read : decode announced first offset units (frame.bytes ++ back) =
      .ok (result, rest)) (row : frame.kind ≠ markerKind) (some : more ≠ [])
    (framed : unitFields frame.kind (frame.body ++ more) = .ok fields) :
    decode announced first offset units (fields.flatten ++ back) = .error
      (if maxUnitBytes < (frame.body ++ more).length then
        .corrupt (.unitTooLarge (frame.body ++ more).length offset)
      else if offset.toNat + fields.flatten.length < UInt64.size then
        .corrupt (.bytesBehindRow more.length)
      else .overflow .addition) := by
  obtain ⟨-, added, -, taken, -, -⟩ := exists_behind_frame read
  split
  · rw [decode_fields_of_large frame.live framed ‹_›]
  · rename_i large
    have small := Nat.le_of_not_lt large
    obtain ⟨behind, front, size, -⟩ := reads_of_unitFields framed small offset
    rw [decode_fields_eq frame.live framed small, exactSum, toNat_unitSize small, front,
      List.length_cons, size, show 9 + (frame.body ++ more).length =
        8 + (frame.body ++ more).length + 1 by omega]
    split
    · rename_i refused
      split at refused
      · cases refused
      · cases refused
        rw [if_neg ‹_›]
    · rename_i placed
      split at placed
      · rw [if_pos ‹_›, add_append taken some, if_neg row]
      · cases placed

/-- A marker whose body goes on is read as before, if it is not too large then. -/
theorem decode_append_marker (read : decode announced first offset units (frame.bytes ++ back) =
      .ok (result, rest)) (marker : frame.kind = markerKind) (some : more ≠ [])
    (framed : unitFields frame.kind (frame.body ++ more) = .ok fields)
    (room : offset.toNat + (fields.flatten ++ back).length < UInt64.size) :
    decode announced first offset units (fields.flatten ++ back) =
      if maxUnitBytes < (frame.body ++ more).length then
        .error (.corrupt (.unitTooLarge (frame.body ++ more).length offset))
      else .ok (result, rest) := by
  obtain ⟨place, added, -, taken, -, further⟩ := exists_behind_frame read
  split
  · rw [decode_fields_of_large frame.live framed ‹_›]
  · rename_i large
    have small := Nat.le_of_not_lt large
    have again := (add_append taken some offset).trans (if_pos marker)
    rw [List.length_append] at room
    obtain ⟨next, reached, goes⟩ := decode_fields frame.live framed small again (by omega)
    rw [goes, decode_of_decode further (by omega)]

end Surplus

end Units

/-- A unit whose body goes on is refused if it is no marker, and a marker is read as before. -/
theorem Partition.decode_append_body {offset : UInt64} {rest : Bytes} {partition : Partition}
    {header : Header} {before : List Frame} {frame : Frame} {back : Bytes} {fields : List Bytes}
    (own : header.key = partition.key)
    (read : decode offset (header.encode ++ (before.flatMap Frame.bytes ++ (frame.bytes ++ back))) =
      .ok (partition, rest)) (some : more ≠ [])
    (framed : unitFields frame.kind (frame.body ++ more) = .ok fields) {longer : Bytes}
    (goes : longer = header.encode ++ (before.flatMap Frame.bytes ++ (fields.flatten ++ back))) :
    ∃ place : UInt64,
      place.toNat = offset.toNat + (header.encode ++ before.flatMap Frame.bytes).length ∧
      (frame.kind ≠ markerKind → decode offset longer = .error
        (if maxUnitBytes < (frame.body ++ more).length then
          .corrupt (.unitTooLarge (frame.body ++ more).length place)
        else if place.toNat + fields.flatten.length < UInt64.size then
          .corrupt (.bytesBehindRow more.length)
        else .overflow .addition)) ∧
      (frame.kind = markerKind → offset.toNat + longer.length < UInt64.size →
        decode offset longer =
          if maxUnitBytes < (frame.body ++ more).length then
            .error (.corrupt (.unitTooLarge (frame.body ++ more).length place))
          else .ok (partition, rest)) := by
  subst goes
  obtain ⟨first, units, start, followed, whole⟩ := exists_units_of_decode own read
  obtain ⟨leading, place, held, reached, moves, inside⟩ := Units.exists_behind_frames followed
  refine ⟨place, ?_, fun row => ?_, fun marker room => ?_⟩
  · rw [List.length_append]
    omega
  · rw [whole, moves, Units.decode_append_row inside row some framed]
    rfl
  · rw [List.length_append, List.length_append] at room
    rw [whole, moves, Units.decode_append_marker inside marker some framed (by omega)]
    split
    · rfl
    · rw [← read, whole, moves, inside]

/-- An entry that is read and whose blocks go on is the same if it has blocks. -/
theorem IndexEntry.decode?_append_promoted {record : IndexRecord} {key : Key} {entry : IndexEntry}
    {rest : Bytes} (short : record.key.length < Bytes.limit 2)
    (read : decode? (record.encode ++ rest) = .ok (some (key, entry)))
    (framed : (record.promoted ++ more).length < Bytes.limit 4) :
    decode? ({ record with promoted := record.promoted ++ more }.encode ++ rest) =
      if maxPromotedBytes < (record.promoted ++ more).length then
        .error (.corrupt (.promotedIndexTooLarge (record.promoted ++ more).length))
      else if record.promoted = [] then
        (Block.decodeAll more).map fun blocks => some (key, ⟨record.dataPosition, blocks⟩)
      else .ok (some (key, entry)) := by
  let longer : IndexRecord := { record with promoted := record.promoted ++ more }
  have named : longer.key.length < Bytes.limit 2 := short
  have fits : record.promoted.length < Bytes.limit 4 := by
    rw [List.length_append] at framed
    omega
  rw [decode?_encode short fits] at read
  split at read
  · cases read
  · obtain ⟨_, held, same⟩ := Except.map_eq_ok_iff.1 read
    cases same
    refine (decode?_encode named framed rest).trans (ite_congr rfl (fun _ => rfl) fun _ => ?_)
    split
    · rename_i none
      have alone : longer.promoted = more := congrArg (· ++ more) none
      rw [IndexRecord.entry, alone]
      cases Block.decodeAll more <;> rfl
    · rename_i some
      obtain ⟨blocks, found, rfl⟩ := Except.map_eq_ok_iff.1 held
      have again : Block.decodeAll longer.promoted = .ok blocks :=
        Block.decodeAll_append found some more
      rw [IndexRecord.entry, again]
      rfl

/-- A row whose body goes on is refused, but a marker or an entry that goes on is read as before. -/
theorem decode_of_surplus (offset : UInt64) (bytes : Bytes) :
    (∀ (rest : Bytes) (partition : Partition),
      Partition.decode offset bytes = .ok (partition, rest) →
      (∃ (header : Header) (frames : List Frame), header.key = partition.key ∧
        frames.length = partition.staticRow.toList.length + partition.elements.length ∧
        bytes = header.encode ++ (frames.flatMap Frame.bytes ++ (endMark ++ rest))) ∧
      ∀ (header : Header) (before : List Frame) (frame : Frame) (back more longer : Bytes)
        (fields : List Bytes), header.key = partition.key →
        bytes = header.encode ++ (before.flatMap Frame.bytes ++ (frame.bytes ++ back)) →
        more ≠ [] → unitFields frame.kind (frame.body ++ more) = .ok fields →
        longer = header.encode ++ (before.flatMap Frame.bytes ++ (fields.flatten ++ back)) →
        ∃ place : UInt64,
          place.toNat = offset.toNat + (header.encode ++ before.flatMap Frame.bytes).length ∧
          (frame.kind ≠ markerKind → Partition.decode offset longer = .error
            (if maxUnitBytes < (frame.body ++ more).length then
              .corrupt (.unitTooLarge (frame.body ++ more).length place)
            else if place.toNat + fields.flatten.length < UInt64.size then
              .corrupt (.bytesBehindRow more.length)
            else .overflow .addition)) ∧
          (frame.kind = markerKind → offset.toNat + longer.length < UInt64.size →
            Partition.decode offset longer =
              if maxUnitBytes < (frame.body ++ more).length then
                .error (.corrupt (.unitTooLarge (frame.body ++ more).length place))
              else .ok (partition, rest))) ∧
    ∀ (key : Key) (entry : IndexEntry),
      IndexEntry.decode? bytes = .ok (some (key, entry)) →
      (∃ (record : IndexRecord) (rest : Bytes), record.key.length < Bytes.limit 2 ∧
        bytes = record.encode ++ rest) ∧
      ∀ (record : IndexRecord) (rest more : Bytes), record.key.length < Bytes.limit 2 →
        bytes = record.encode ++ rest → (record.promoted ++ more).length < Bytes.limit 4 →
        IndexEntry.decode? ({ record with promoted := record.promoted ++ more }.encode ++ rest) =
          if maxPromotedBytes < (record.promoted ++ more).length then
            .error (.corrupt (.promotedIndexTooLarge (record.promoted ++ more).length))
          else if record.promoted = [] then
            (Block.decodeAll more).map fun blocks => some (key, ⟨record.dataPosition, blocks⟩)
          else .ok (some (key, entry)) := by
  refine ⟨fun rest partition read => ⟨Partition.exists_frames_of_decode read, ?_⟩,
    fun key entry read => ⟨?_, ?_⟩⟩
  · rintro header before frame back more longer fields own rfl some framed goes
    exact Partition.decode_append_body own read some framed goes
  · obtain ⟨record, rest, short, -, same, -, -⟩ := IndexEntry.exists_record_of_decode? read
    exact ⟨record, rest, short, same⟩
  · rintro record rest more short rfl framed
    exact IndexEntry.decode?_append_promoted short read framed

/-- A record of the key `k` with one block. -/
def IndexRecord.lone : IndexRecord where
  key := [107]
  dataPosition := 7
  promoted := [1, 0, 0, 0, 0, 0, 0, 0] ++ Bytes.word64 0 ++ Bytes.word64 40

/-- A byte behind the marker or behind the block goes unnoticed, and a byte behind the row is
refused. -/
theorem decode_of_surplus_lone :
    (∃ fields, unitFields markerKind (Frame.loneMarker.body ++ [0]) = .ok fields ∧
      Partition.decode 8 (Header.encode ⟨.ofBytes [7], ⟨-7, 3⟩, 0⟩ ++ (fields.flatten ++
        ((Frame.loneRow 97).bytes ++ (endMark ++ [1, 2])))) =
        .ok (Partition.lone.normalized, [1, 2])) ∧
    (∃ fields, unitFields (Frame.loneRow 97).kind ((Frame.loneRow 97).body ++ [0]) = .ok fields ∧
      Partition.decode 8 (Header.encode ⟨.ofBytes [7], ⟨-7, 3⟩, 0⟩ ++ (Frame.loneMarker.bytes ++
        (fields.flatten ++ (endMark ++ [1, 2])))) = .error (.corrupt (.bytesBehindRow 1))) ∧
    IndexEntry.decode? ({ IndexRecord.lone with promoted := IndexRecord.lone.promoted ++ [9] }.encode ++
      []) = .ok (some (.ofBytes [107], ⟨7, [⟨[], [], 0, 40⟩]⟩)) := by
  obtain ⟨-, longer⟩ := (decode_of_surplus 8 _).1 [1, 2] _ Partition.decode_lone
  refine ⟨⟨_, rfl, ?_⟩, ⟨_, rfl, ?_⟩, ?_⟩
  · obtain ⟨place, -, -, taken⟩ := longer ⟨.ofBytes [7], ⟨-7, 3⟩, 0⟩ [] Frame.loneMarker
      ((Frame.loneRow 97).bytes ++ (endMark ++ [1, 2])) [0] _ _ rfl rfl (List.cons_ne_nil _ _) rfl rfl
    exact (taken rfl (by decide +kernel)).trans (if_neg (by decide +kernel))
  · obtain ⟨place, reached, refused, -⟩ := longer ⟨.ofBytes [7], ⟨-7, 3⟩, 0⟩ [Frame.loneMarker]
      (Frame.loneRow 97) (endMark ++ [1, 2]) [0] _ _ rfl (by simp) (List.cons_ne_nil _ _) rfl rfl
    have behind : place = 48 := UInt64.toNat_inj.1 (reached.trans (by decide +kernel))
    rw [List.flatMap_singleton] at refused
    rw [refused (by decide), behind, if_neg (by decide +kernel), if_pos (by decide +kernel)]
    rfl
  · have read : IndexEntry.decode? (IndexRecord.lone.encode ++ []) =
        .ok (some (.ofBytes [107], ⟨7, [⟨[], [], 0, 40⟩]⟩)) :=
      Except.toOption_eq_some_iff.1 (by decide +kernel)
    have longer := ((decode_of_surplus 0 _).2 _ _ read).2 .lone [] [9] (by decide) rfl (by decide)
    exact longer.trans ((if_neg (by decide)).trans (if_neg (by decide)))

/-- A marker with a byte behind it is read like the marker without this byte. -/
theorem Partition.decode_accepts_surplus :
    ∃ fields, unitFields markerKind (Frame.loneMarker.body ++ [0]) = .ok fields ∧
      decode 8 (Header.encode ⟨.ofBytes [7], ⟨-7, 3⟩, 0⟩ ++ (Frame.loneMarker.bytes ++
        ((Frame.loneRow 97).bytes ++ (endMark ++ [1, 2])))) = .ok (lone.normalized, [1, 2]) ∧
      decode 8 (Header.encode ⟨.ofBytes [7], ⟨-7, 3⟩, 0⟩ ++ (fields.flatten ++
        ((Frame.loneRow 97).bytes ++ (endMark ++ [1, 2])))) = .ok (lone.normalized, [1, 2]) := by
  refine ⟨_, rfl, decode_lone, ?_⟩
  have split : Header.encode ⟨.ofBytes [7], ⟨-7, 3⟩, 0⟩ ++ (Frame.loneMarker.bytes ++
      ((Frame.loneRow 97).bytes ++ (endMark ++ [1, 2]))) =
      Header.encode ⟨.ofBytes [7], ⟨-7, 3⟩, 0⟩ ++ (([] : List Frame).flatMap Frame.bytes ++
        (Frame.loneMarker.bytes ++ ((Frame.loneRow 97).bytes ++ (endMark ++ [1, 2])))) := rfl
  obtain ⟨place, -, -, taken⟩ := decode_append_body rfl (split ▸ decode_lone)
    (List.cons_ne_nil 0 []) rfl rfl
  exact (taken rfl (by decide +kernel)).trans (if_neg (by decide +kernel))

end SortedTable

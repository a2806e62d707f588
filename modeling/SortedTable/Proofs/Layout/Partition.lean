import SortedTable.Proofs.Layout.Row
import SortedTable.Writer.Script

namespace SortedTable

open Decoder

/-- No unit of the partition is larger than a reader accepts. -/
structure Partition.UnitsFit (partition : Partition) : Prop where
  staticRow : ∀ row body, partition.writtenStaticRow = some row → row.encode = .ok body →
    body.length ≤ maxUnitBytes
  elements : ∀ element ∈ partition.elements, ∀ kind body, element.encode = .ok (kind, body) →
    body.length ≤ maxUnitBytes

theorem Partition.unitsFit_iff {partition : Partition} :
    partition.UnitsFit ↔
      (∀ body ∈ partition.writtenStaticRow.toList.filterMap fun row => row.encode.toOption,
        body.length ≤ maxUnitBytes) ∧
      ∀ unit ∈ partition.elements.filterMap fun element => element.encode.toOption,
        unit.2.length ≤ maxUnitBytes := by
  constructor
  · intro fits
    refine ⟨fun body member => ?_, fun unit member => ?_⟩
    · obtain ⟨row, held, written⟩ := List.mem_filterMap.1 member
      exact fits.staticRow row body (Option.mem_toList.1 held)
        (Except.toOption_eq_some_iff.1 written)
    · obtain ⟨element, among, written⟩ := List.mem_filterMap.1 member
      exact fits.elements element among unit.1 unit.2 (Except.toOption_eq_some_iff.1 written)
  · rintro ⟨rows, units⟩
    refine ⟨fun row body held written => ?_, fun element member kind body written => ?_⟩
    · exact rows body (List.mem_filterMap.2
        ⟨row, Option.mem_toList.2 held, Except.toOption_eq_some_iff.2 written⟩)
    · exact units (kind, body) (List.mem_filterMap.2
        ⟨element, member, Except.toOption_eq_some_iff.2 written⟩)

instance (partition : Partition) : Decidable partition.UnitsFit :=
  decidable_of_iff' _ Partition.unitsFit_iff

theorem Key.ofBytes_bytes (key : Key) : Key.ofBytes key.bytes = key := Key.ext (bytes_ofBytes _)

theorem Key.fields_eq_ok_iff {key : Key} {fields : List Bytes} :
    key.fields = .ok fields ↔ key.bytes.length < Bytes.limit 2 ∧
      fields = [Bytes.littleEndian 2 key.bytes.length, key.bytes] := by
  have same : maxKeyBytes + 1 = Bytes.limit 2 := rfl
  unfold Key.fields
  split
  · have small : key.bytes.length < Bytes.limit 2 := by omega
    simp [small, eq_comm]
  · have large : ¬ key.bytes.length < Bytes.limit 2 := by omega
    simp [large]

/-- What is read of a header is what was written of it. -/
theorem Header.reads_of_headerFields {key : Key} {deletion : Deletion} {hasStaticRow : Bool}
    {fields : List Bytes} (written : headerFields key deletion hasStaticRow = .ok fields) :
    Reads Header.decode fields.flatten
      ⟨key, deletion, if hasStaticRow then staticRowFlag else 0⟩ := by
  obtain ⟨name, named, rfl⟩ := Except.map_eq_ok_iff.1 written
  obtain ⟨small, rfl⟩ := Key.fields_eq_ok_iff.1 named
  have flags : Reads (Decoder.word8 : Decoder TableError UInt8) _ _ :=
    .word8 (if hasStaticRow then staticRowFlag else 0)
  have reads : Reads Header.decode (Bytes.littleEndian 2 key.bytes.length ++ (key.bytes ++
      (deletion.encode ++ [if hasStaticRow then staticRowFlag else 0])))
      ⟨.ofBytes key.bytes, deletion, if hasStaticRow then staticRowFlag else 0⟩ :=
    (Reads.little small).bind ((Reads.take rfl).bind
      ((Deletion.reads_encode deletion).bind (flags.bindPure rfl)))
  rw [Key.ofBytes_bytes] at reads
  simpa [Deletion.encode] using reads

/-- The size of a header is the number of its bytes. -/
theorem length_of_headerFields {key : Key} {deletion : Deletion} {hasStaticRow : Bool}
    {fields : List Bytes} (written : headerFields key deletion hasStaticRow = .ok fields) :
    fields.flatten.length = (headerSize key).toNat := by
  obtain ⟨name, named, rfl⟩ := Except.map_eq_ok_iff.1 written
  obtain ⟨small, rfl⟩ := Key.fields_eq_ok_iff.1 named
  have bound : Bytes.limit 2 < 2 ^ 32 := by decide
  have two : (2 : UInt64).toNat = 2 := rfl
  have twelve : (12 : UInt64).toNat = 12 := rfl
  have one : (1 : UInt64).toNat = 1 := rfl
  simp only [headerSize, UInt64.toNat_add, UInt64.toNat_ofNat', two, twelve, one, List.flatten_append,
    List.length_append, List.flatten_cons, List.flatten_nil, Bytes.length_littleEndian,
    Bytes.length_word64, Bytes.length_word32, List.length_cons, List.length_nil]
  omega

theorem Header.hasStaticRow_mk (key : Key) (deletion : Deletion) (announced : Bool) :
    (Header.mk key deletion (if announced then staticRowFlag else 0)).hasStaticRow = announced := by
  cases announced <;> simp [Header.hasStaticRow, staticRowFlag]

/-- A unit of a size that a reader accepts is its kind and what the body is read from. -/
theorem reads_of_unitFields {kind : UInt8} {body : Bytes} {fields : List Bytes}
    (written : unitFields kind body = .ok fields) (fits : body.length ≤ maxUnitBytes)
    (offset : UInt64) :
    ∃ behind, fields.flatten = kind :: behind ∧ behind.length = 8 + body.length ∧
      Reads (decodeBody offset) behind body := by
  obtain ⟨length, prefixed, rfl⟩ := Except.map_eq_ok_iff.1 written
  obtain ⟨small, rfl⟩ := lengthPrefix_eq_ok_iff.1 prefixed
  refine ⟨Bytes.littleEndian 4 body.length ++ (Bytes.word32 (Checksum.crc32 body) ++ body),
    by simp, by simp; omega, ?_⟩
  refine (Reads.little small).bind ?_
  rw [if_neg (by omega)]
  refine (Reads.word32 _).bind ((Reads.take rfl).bindPure ?_)
  dsimp only
  rw [if_pos rfl]

/-- A unit of a size that no reader accepts is refused before its body is read. -/
theorem decodeBody_of_large {kind : UInt8} {body : Bytes} {fields : List Bytes}
    (written : unitFields kind body = .ok fields) (large : maxUnitBytes < body.length)
    (offset : UInt64) :
    ∃ behind, fields.flatten = kind :: behind ∧ ∀ rest, decodeBody offset (behind ++ rest) =
      .error (.corrupt (.unitTooLarge body.length offset)) := by
  obtain ⟨length, prefixed, rfl⟩ := Except.map_eq_ok_iff.1 written
  obtain ⟨small, rfl⟩ := lengthPrefix_eq_ok_iff.1 prefixed
  refine ⟨Bytes.littleEndian 4 body.length ++ (Bytes.word32 (Checksum.crc32 body) ++ body),
    by simp, fun rest => ?_⟩
  rw [decodeBody, List.append_assoc, (Reads.little small).bind_append, if_pos large]
  rfl

theorem toNat_unitSize {body : Bytes} (fits : body.length ≤ maxUnitBytes) :
    (unitSize body).toNat = 9 + body.length := by
  have header : unitHeaderSize.toNat = 9 := rfl
  have bound : maxUnitBytes < 2 ^ 32 := by decide
  rw [unitSize, UInt64.toNat_add, header, UInt64.toNat_ofNat']
  omega

theorem exactSum_of_lt {left right : UInt64} (fits : left.toNat + right.toNat < UInt64.size) :
    exactSum left right = .ok (left + right) := by
  rw [exactSum, if_pos fits]

namespace EncodedElement

theorem ofElement_eq_ok {element : Element} {encoded : EncodedElement}
    (written : ofElement element = .ok encoded) :
    ∃ kind body, element.encode = .ok (kind, body) ∧ unitFields kind body = .ok encoded.fields ∧
      encoded.element = element ∧ encoded.size = unitSize body := by
  obtain ⟨⟨kind, body⟩, unit, written⟩ := Except.bind_eq_ok_iff.1 written
  obtain ⟨fields, framed, same⟩ := Except.bind_eq_ok_iff.1 written
  cases Except.pure_eq_ok_iff.1 same
  exact ⟨kind, body, unit, framed, rfl, rfl⟩

theorem ofElements_eq_none_iff {elements : List Element} {encoded : List EncodedElement} :
    ofElements elements = (encoded, none) ↔
      List.Forall₂ (fun element unit => ofElement element = .ok unit) elements encoded := by
  induction elements generalizing encoded with
  | nil => simp [ofElements, eq_comm]
  | cons element rest ih =>
      rw [ofElements, List.forall₂_cons_left_iff]
      cases ofElement element with
      | error cause => simp
      | ok first =>
          cases found : ofElements rest with
          | mk further fault =>
              rw [found] at ih
              constructor
              · intro same
                cases same
                exact ⟨first, further, rfl, ih.1 rfl, rfl⟩
              · rintro ⟨_, others, same, each, rfl⟩
                cases same
                cases ih.2 each
                rfl

end EncodedElement

namespace Units

/-- An element is added behind those before it. -/
theorem add_of_encode {element : Element} {kind : UInt8} {body : Bytes}
    (written : element.encode = .ok (kind, body)) (units : Units) (announced first : Bool)
    (offset : UInt64) :
    kind ≠ endKind ∧ units.add announced first offset kind body =
      .ok { units with reversed := element :: units.reversed } := by
  cases element with
  | row content =>
      obtain ⟨_, encoded, same⟩ := Except.map_eq_ok_iff.1 written
      cases same
      refine ⟨by decide, ?_⟩
      rw [add, if_neg (by simp [rowKind, staticRowKind]), if_pos rfl, Row.decode_of_encode encoded]
      rfl
  | marker content =>
      obtain ⟨_, encoded, same⟩ := Except.map_eq_ok_iff.1 written
      cases same
      refine ⟨by decide, ?_⟩
      rw [add, if_neg (by simp [markerKind, staticRowKind]),
        if_neg (by simp [markerKind, rowKind]), if_pos rfl, Marker.decode_of_encode encoded]
      rfl

/-- A unit that can be read and added is followed by the units behind it. -/
theorem decode_unit {announced first : Bool} {offset next : UInt64} {units added : Units}
    {kind : UInt8} {behind body rest : Bytes} (live : kind ≠ endKind)
    (read : decodeBody offset behind = .ok (body, rest))
    (place : exactSum offset (unitSize body) = .ok next)
    (taken : units.add announced first offset kind body = .ok added) :
    decode announced first offset units (kind :: behind) = decode announced false next added rest := by
  rw [decode, if_neg live]
  split
  · rename_i failed
    rw [read] at failed
    cases failed
  · rename_i found
    rw [read] at found
    cases found
    simp [place, taken]

/-- A static row is taken in front of all elements. -/
theorem add_staticRow {row : Row} {body : Bytes} (encodes : row.encode = .ok body)
    (offset : UInt64) :
    add {} true true offset staticRowKind body = .ok { staticRow := some row } := by
  rw [add, if_pos (by simp), Row.decode_of_encode encodes]
  rfl

theorem decode_endMark (announced first : Bool) (offset : UInt64) (units : Units) (rest : Bytes) :
    decode announced first offset units (endMark ++ rest) = .ok (units, rest) := by
  rw [endMark, List.singleton_append, decode, if_pos rfl]

/-- A unit of a size that a reader accepts is followed by the units behind its bytes. -/
theorem decode_fields {announced first : Bool} {offset : UInt64} {units added : Units}
    {kind : UInt8} {body : Bytes} {fields : List Bytes} (live : kind ≠ endKind)
    (written : unitFields kind body = .ok fields) (small : body.length ≤ maxUnitBytes)
    (taken : units.add announced first offset kind body = .ok added)
    (room : offset.toNat + fields.flatten.length < UInt64.size) :
    ∃ next : UInt64, next.toNat = offset.toNat + fields.flatten.length ∧ ∀ rest,
      decode announced first offset units (fields.flatten ++ rest) =
        decode announced false next added rest := by
  obtain ⟨behind, front, size, reads⟩ := reads_of_unitFields written small offset
  rw [front, List.length_cons, size] at room ⊢
  have place : exactSum offset (unitSize body) = .ok (offset + unitSize body) :=
    exactSum_of_lt (by rw [toNat_unitSize small]; omega)
  have next := toNat_of_exactSum place
  rw [toNat_unitSize small] at next
  exact ⟨offset + unitSize body, by omega, fun rest => decode_unit live (reads rest) place taken⟩

/-- A unit of a size that no reader accepts ends the reading. -/
theorem decode_fields_of_large {kind : UInt8} {body : Bytes} {fields : List Bytes}
    (live : kind ≠ endKind) (written : unitFields kind body = .ok fields)
    (large : maxUnitBytes < body.length) (announced first : Bool) (offset : UInt64) (units : Units)
    (rest : Bytes) : decode announced first offset units (fields.flatten ++ rest) =
      .error (.corrupt (.unitTooLarge body.length offset)) := by
  obtain ⟨behind, front, refused⟩ := decodeBody_of_large written large offset
  rw [front, List.cons_append, decode, if_neg live]
  split
  · rename_i failed
    cases (refused rest).symm.trans failed
    rfl
  · rename_i found
    cases (refused rest).symm.trans found

/-- The elements of a partition are read in order up to the end mark. -/
theorem decode_elements {elements : List Element} {encoded : List EncodedElement}
    (written : List.Forall₂ (fun element unit => EncodedElement.ofElement element = .ok unit)
      elements encoded)
    (fits : ∀ element ∈ elements, ∀ kind body, element.encode = .ok (kind, body) →
      body.length ≤ maxUnitBytes)
    (announced first : Bool) (offset : UInt64) (units : Units) (rest : Bytes)
    (room : offset.toNat + (encoded.flatMap EncodedElement.fields).flatten.length < UInt64.size) :
    decode announced first offset units
        ((encoded.flatMap EncodedElement.fields).flatten ++ (endMark ++ rest)) =
      .ok ({ units with reversed := elements.reverse ++ units.reversed }, rest) := by
  induction written generalizing first offset units with
  | nil => simpa using decode_endMark announced first offset units rest
  | @cons element unit others units' framed _ ih =>
      obtain ⟨kind, body, encodes, fields, -, -⟩ := EncodedElement.ofElement_eq_ok framed
      have small := fits element List.mem_cons_self kind body encodes
      obtain ⟨live, added⟩ := add_of_encode encodes units announced first offset
      rw [List.flatMap_cons, List.flatten_append] at room ⊢
      rw [List.length_append] at room
      obtain ⟨next, place, decoded⟩ := decode_fields live fields small added (by omega)
      rw [List.append_assoc, decoded,
        ih (fun other member => fits other (List.mem_cons_of_mem _ member)) _ _ _ (by omega)]
      simp

/-- Elements are not read behind the first one that is larger than a reader accepts. -/
theorem decode_elements_of_large {elements : List Element} {encoded : List EncodedElement}
    (written : List.Forall₂ (fun element unit => EncodedElement.ofElement element = .ok unit)
      elements encoded)
    (large : ¬ ∀ element ∈ elements, ∀ kind body, element.encode = .ok (kind, body) →
      body.length ≤ maxUnitBytes)
    (announced first : Bool) (offset : UInt64) (units : Units) (rest : Bytes)
    (room : offset.toNat + (encoded.flatMap EncodedElement.fields).flatten.length < UInt64.size) :
    ∃ length place, maxUnitBytes < length ∧ decode announced first offset units
      ((encoded.flatMap EncodedElement.fields).flatten ++ rest) =
        .error (.corrupt (.unitTooLarge length place)) := by
  induction written generalizing first offset units with
  | nil => exact absurd nofun large
  | @cons element unit others units' framed _ ih =>
      obtain ⟨kind, body, encodes, fields, -, -⟩ := EncodedElement.ofElement_eq_ok framed
      obtain ⟨live, added⟩ := add_of_encode encodes units announced first offset
      rw [List.flatMap_cons, List.flatten_append] at room ⊢
      rw [List.append_assoc]
      by_cases small : body.length ≤ maxUnitBytes
      · rw [List.length_append] at room
        obtain ⟨next, place, decoded⟩ := decode_fields live fields small added (by omega)
        rw [decoded]
        refine ih (fun fits => large fun other member kind' body' encodes' => ?_) _ _ _ (by omega)
        rcases List.mem_cons.1 member with rfl | member
        · cases encodes.symm.trans encodes'
          exact small
        · exact fits other member kind' body' encodes'
      · have exceeds := Nat.lt_of_not_le small
        exact ⟨body.length, offset, exceeds,
          decode_fields_of_large live fields exceeds announced first offset units _⟩

end Units

namespace Partition

/-- The fields that are written of a partition to the data. -/
structure Encoding (partition : Partition) where
  header : List Bytes
  staticRow : List Bytes
  elements : List EncodedElement
  header_eq :
    headerFields partition.key partition.deletion partition.writtenStaticRow.isSome = .ok header
  staticRow_eq : partition.writtenStaticRow.elim (.ok []) Row.staticFields = .ok staticRow
  elements_eq : List.Forall₂ (fun element unit => EncodedElement.ofElement element = .ok unit)
    partition.elements elements

/-- The bytes of a partition. -/
def Encoding.bytes {partition : Partition} (encoding : partition.Encoding) : Bytes :=
  encoding.header.flatten ++ (encoding.staticRow.flatten ++
    ((encoding.elements.flatMap EncodedElement.fields).flatten ++ endMark))

/-- Without a static row there is no unit in front of the elements. -/
theorem Encoding.staticRow_of_none {partition : Partition} (encoding : partition.Encoding)
    (held : partition.writtenStaticRow = none) : encoding.staticRow = [] := by
  have written := encoding.staticRow_eq
  rw [held] at written
  exact (Except.ok.inj written).symm

/-- A static row is a unit in front of the elements. -/
theorem Encoding.staticRow_of_some {partition : Partition} (encoding : partition.Encoding)
    {row : Row} (held : partition.writtenStaticRow = some row) :
    ∃ body, row.encode = .ok body ∧ unitFields staticRowKind body = .ok encoding.staticRow := by
  have written := encoding.staticRow_eq
  rw [held] at written
  change liftIo (row.encode >>= unitFields staticRowKind) = _ at written
  cases outcome : row.encode >>= unitFields staticRowKind with
  | error => rw [outcome] at written; cases written
  | ok fields =>
      rw [outcome] at written
      cases written
      exact Except.bind_eq_ok_iff.1 outcome

/-- A static row is read in front of the elements. -/
theorem Encoding.decode_units {partition : Partition} (encoding : partition.Encoding)
    (fits : partition.UnitsFit) (offset : UInt64) (rest : Bytes)
    (room : offset.toNat + (encoding.staticRow.flatten ++
      (encoding.elements.flatMap EncodedElement.fields).flatten).length < UInt64.size) :
    Units.decode partition.writtenStaticRow.isSome true offset {}
        (encoding.staticRow.flatten ++
          ((encoding.elements.flatMap EncodedElement.fields).flatten ++ (endMark ++ rest))) =
      .ok (⟨partition.writtenStaticRow, partition.elements.reverse⟩, rest) := by
  have framed := encoding.elements_eq
  rw [List.length_append] at room
  cases held : partition.writtenStaticRow with
  | none =>
      rw [encoding.staticRow_of_none held] at room ⊢
      have read := Units.decode_elements framed fits.elements false true offset {} rest
        (by omega)
      simpa using read
  | some row =>
      obtain ⟨body, encodes, fields⟩ := encoding.staticRow_of_some held
      have small := fits.staticRow row body held encodes
      obtain ⟨next, place, decoded⟩ := Units.decode_fields (by decide) fields small
        (Units.add_staticRow encodes offset) (by omega)
      rw [Option.isSome_some, decoded,
        Units.decode_elements framed fits.elements true false _ _ rest (by omega)]
      simp

/-- Units are not read behind the first one that is larger than a reader accepts. -/
theorem Encoding.decode_units_of_large {partition : Partition} (encoding : partition.Encoding)
    (large : ¬ partition.UnitsFit) (offset : UInt64) (rest : Bytes)
    (room : offset.toNat + (encoding.staticRow.flatten ++
      (encoding.elements.flatMap EncodedElement.fields).flatten).length < UInt64.size) :
    ∃ length place, maxUnitBytes < length ∧
      Units.decode partition.writtenStaticRow.isSome true offset {}
          (encoding.staticRow.flatten ++
            ((encoding.elements.flatMap EncodedElement.fields).flatten ++ rest)) =
        .error (.corrupt (.unitTooLarge length place)) := by
  have framed := encoding.elements_eq
  rw [List.length_append] at room
  cases held : partition.writtenStaticRow with
  | none =>
      rw [encoding.staticRow_of_none held] at room ⊢
      exact Units.decode_elements_of_large framed
        (fun fits => large ⟨fun row body held' => (nomatch held.symm.trans held'), fits⟩)
        false true offset {} rest (by omega)
  | some row =>
      obtain ⟨body, encodes, fields⟩ := encoding.staticRow_of_some held
      by_cases small : body.length ≤ maxUnitBytes
      · obtain ⟨next, place, decoded⟩ := Units.decode_fields (by decide) fields small
          (Units.add_staticRow encodes offset) (by omega)
        rw [Option.isSome_some, decoded]
        refine Units.decode_elements_of_large framed
          (fun fits => large ⟨fun row' body' held' encodes' => ?_, fits⟩) true false _ _ rest (by omega)
        cases held.symm.trans held'
        cases encodes.symm.trans encodes'
        exact small
      · have exceeds := Nat.lt_of_not_le small
        exact ⟨body.length, offset, exceeds,
          Units.decode_fields_of_large (by decide) fields exceeds true true offset {} _⟩

/-- A position that is a word is read off no bytes. -/
theorem reads_of_exactSum {offset size first : UInt64} (place : exactSum offset size = .ok first) :
    Reads (fun bytes => match exactSum offset size with
      | .error cause => .error (TableError.overflow cause)
      | .ok first => .ok (first, bytes)) [] first := by
  intro rest
  dsimp only
  rw [place]
  rfl

/-- Behind the header of a partition its units are read, and then the partition is put together. -/
theorem Encoding.decode_eq {partition : Partition} (encoding : partition.Encoding) (offset : UInt64)
    (room : offset.toNat + encoding.bytes.length < UInt64.size) :
    ∃ first : UInt64, first.toNat + (encoding.staticRow.flatten ++
        (encoding.elements.flatMap EncodedElement.fields).flatten).length < UInt64.size ∧
      ∀ rest, decode offset (encoding.bytes ++ rest) =
        Units.decode partition.writtenStaticRow.isSome true first {} (encoding.staticRow.flatten ++
          ((encoding.elements.flatMap EncodedElement.fields).flatten ++ (endMark ++ rest))) >>=
        fun read =>
          if partition.writtenStaticRow.isSome && read.1.staticRow.isNone then
            .error (.corrupt (.staticRowLost offset))
          else .ok (⟨partition.key, partition.deletion, read.1.staticRow, read.1.reversed.reverse⟩,
            read.2) := by
  have header := Header.reads_of_headerFields encoding.header_eq
  have size := length_of_headerFields encoding.header_eq
  simp only [bytes, List.length_append, size] at room
  have place : exactSum offset (headerSize partition.key) =
      .ok (offset + headerSize partition.key) := exactSum_of_lt (by omega)
  have next := toNat_of_exactSum place
  refine ⟨offset + headerSize partition.key, by rw [List.length_append]; omega, fun rest => ?_⟩
  rw [bytes, List.append_assoc, List.append_assoc, List.append_assoc, decode, header.bind_append]
  refine ((reads_of_exactSum place).bind_append _ _).trans ?_
  rw [Header.hasStaticRow_mk]
  refine congrArg (Except.bind _) (funext fun read => ?_)
  dsimp only
  split <;> rfl

/-- What a writer writes of a partition to the data is read back, with an empty static row as none. -/
theorem Encoding.reads {partition : Partition} (encoding : partition.Encoding)
    (fits : partition.UnitsFit) (offset : UInt64)
    (room : offset.toNat + encoding.bytes.length < UInt64.size) :
    Reads (decode offset) encoding.bytes partition.normalized := by
  intro rest
  obtain ⟨first, room', decoded⟩ := encoding.decode_eq offset room
  have kept : (partition.writtenStaticRow.isSome && partition.writtenStaticRow.isNone) = false := by
    cases partition.writtenStaticRow <;> rfl
  rw [decoded, encoding.decode_units fits first rest room', Except.ok_bind]
  dsimp only
  rw [if_neg (by simp [kept]), List.reverse_reverse]
  rfl

/-- A partition with a unit that is larger than a reader accepts is written but not read back. -/
theorem Encoding.decode_of_large {partition : Partition} (encoding : partition.Encoding)
    (large : ¬ partition.UnitsFit) (offset : UInt64)
    (room : offset.toNat + encoding.bytes.length < UInt64.size) (rest : Bytes) :
    ∃ length place, maxUnitBytes < length ∧
      decode offset (encoding.bytes ++ rest) = .error (.corrupt (.unitTooLarge length place)) := by
  obtain ⟨first, room', decoded⟩ := encoding.decode_eq offset room
  obtain ⟨length, place, exceeds, refused⟩ :=
    encoding.decode_units_of_large large first (endMark ++ rest) room'
  exact ⟨length, place, exceeds, by rw [decoded, refused]; rfl⟩

end Partition

end SortedTable

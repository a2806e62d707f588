import SortedTable.Layout.Row
import SortedTable.Proofs.Decoder

namespace SortedTable

open Decoder

theorem lengthPrefix_eq_ok_iff {field : LengthField} {width length : Nat} {encoded : Bytes} :
    lengthPrefix field width length = .ok encoded ↔
      length < Bytes.limit width ∧ encoded = Bytes.littleEndian width length := by
  unfold lengthPrefix
  split
  · rename_i fits
    simp [fits, eq_comm]
  · rename_i large
    simp [large]

theorem reads_of_lengthPrefix {ε : Type} [OfIoError ε] {field : LengthField} {width length : Nat}
    {encoded : Bytes} (written : lengthPrefix field width length = .ok encoded) :
    Reads (Decoder.little width : Decoder ε Nat) encoded length := by
  obtain ⟨fits, rfl⟩ := lengthPrefix_eq_ok_iff.1 written
  exact .little fits

theorem reads_takePart {component : Component} {bytes : Bytes} {length : Nat}
    (size : bytes.length = length) : Reads (takePart component length) bytes bytes := by
  intro rest
  subst size
  simp [takePart]

/-- A part behind its length is read back. -/
theorem reads_of_withLength {component : Component} {field : LengthField} {width : Nat}
    {bytes encoded : Bytes} (written : withLength field width bytes = .ok encoded) :
    Reads (do takePart component (← Decoder.little width)) encoded bytes := by
  obtain ⟨length, fits, rfl⟩ := Except.map_eq_ok_iff.1 written
  exact (reads_of_lengthPrefix fits).bind (reads_takePart rfl)

theorem Deletion.reads_encode (deletion : Deletion) : Reads decode deletion.encode deletion :=
  (Reads.int64 deletion.markedAt).bind ((Reads.int32 deletion.localTime).bindPure rfl)

theorem Clustering.reads_of_encode {component : Component} {clustering : Clustering}
    {encoded : Bytes} (written : clustering.encode = .ok encoded) :
    Reads (decode component) encoded clustering := by
  obtain ⟨count, fits, written⟩ := Except.bind_eq_ok_iff.1 written
  obtain ⟨values, each, same⟩ := Except.bind_eq_ok_iff.1 written
  cases Except.pure_eq_ok_iff.1 same
  refine (reads_of_lengthPrefix fits).bind (.many rfl ?_)
  exact (Except.mapM_eq_ok_iff.1 each).flip.imp fun _ _ => reads_of_withLength

namespace Cell

/-- The flags and the value of a cell are read back behind its column and its time. -/
theorem reads_of_encodeValue {column : String} {timestamp : Int64} {value : Option Bytes}
    {encoded : Bytes} (written : encodeValue value = .ok encoded) :
    Reads (do
      let flags ← Decoder.word8
      if flags &&& tombstoneFlag != 0 then
        pure ⟨column, timestamp, none⟩
      else
        let value ← takePart .data (← Decoder.little 4)
        pure ⟨column, timestamp, some value⟩)
      encoded (⟨column, timestamp, value⟩ : Cell) := by
  cases value with
  | none =>
      cases written
      exact (Reads.word8 tombstoneFlag).bindPure rfl
  | some value =>
      obtain ⟨prefixed, behind, rfl⟩ := Except.map_eq_ok_iff.1 written
      obtain ⟨length, fits, rfl⟩ := Except.map_eq_ok_iff.1 behind
      exact (Reads.word8 0).bind
        ((reads_of_lengthPrefix fits).bind ((reads_takePart rfl).bindPure rfl))

theorem reads_of_encode {cell : Cell} {encoded : Bytes} (written : cell.encode = .ok encoded) :
    Reads decode encoded cell := by
  obtain ⟨name, named, written⟩ := Except.bind_eq_ok_iff.1 written
  obtain ⟨value, valued, same⟩ := Except.bind_eq_ok_iff.1 written
  cases Except.pure_eq_ok_iff.1 same
  obtain ⟨length, fits, rfl⟩ := Except.map_eq_ok_iff.1 named
  rw [List.append_assoc, List.append_assoc]
  refine (reads_of_lengthPrefix fits).bind ((reads_takePart rfl).bind ?_)
  rw [Bytes.text?_ofText]
  exact (Reads.int64 cell.timestamp).bind (reads_of_encodeValue valued)

end Cell

namespace Row

theorem reads_of_encode {row : Row} {body : Bytes} (written : row.encode = .ok body) :
    Reads decodeFront body row := by
  obtain ⟨clustering, placed, written⟩ := Except.bind_eq_ok_iff.1 written
  obtain ⟨count, fits, written⟩ := Except.bind_eq_ok_iff.1 written
  obtain ⟨cells, each, same⟩ := Except.bind_eq_ok_iff.1 written
  cases Except.pure_eq_ok_iff.1 same
  rw [List.append_assoc, List.append_assoc]
  have held : List.Forall₂ (Reads Cell.decode) cells row.cells :=
    (Except.mapM_eq_ok_iff.1 each).flip.imp fun _ _ => Cell.reads_of_encode
  refine (Clustering.reads_of_encode placed).bind ((Deletion.reads_encode row.deletion).bind
    ((reads_of_lengthPrefix fits).bind ((Reads.many rfl held).bindPure ?_)))
  rw [ofCells_cells]

/-- The body of a row decodes to the row. -/
theorem decode_of_encode {row : Row} {body : Bytes} (written : row.encode = .ok body) :
    decode body = .ok row := by
  have read := reads_of_encode written []
  rw [List.append_nil] at read
  rw [decode, read]

end Row

namespace Marker

theorem reads_of_encode {marker : Marker} {body : Bytes} (written : marker.encode = .ok body) :
    Reads decodeFront body marker := by
  obtain ⟨clustering, placed, same⟩ := Except.bind_eq_ok_iff.1 written
  cases Except.pure_eq_ok_iff.1 same
  refine (Reads.word8 (boundCode marker.bound)).bind ((Clustering.reads_of_encode placed).bind
    ((Deletion.reads_encode marker.deletion).bindPure ?_))
  rw [boundOfCode?_boundCode]

/-- The body of a marker decodes to the marker. -/
theorem decode_of_encode {marker : Marker} {body : Bytes} (written : marker.encode = .ok body) :
    decode body = .ok marker := by
  have read := reads_of_encode written []
  rw [List.append_nil] at read
  rw [decode, read]
  rfl

end Marker

end SortedTable

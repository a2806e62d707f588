import SortedTable.Proofs.Layout.IndexEntry

namespace SortedTable

/-- The size of a unit is the number of its bytes. -/
theorem length_of_unitFields {kind : UInt8} {body : Bytes} {fields : List Bytes}
    (written : unitFields kind body = .ok fields) :
    fields.flatten.length = (unitSize body).toNat := by
  obtain ⟨length, prefixed, rfl⟩ := Except.map_eq_ok_iff.1 written
  obtain ⟨small, rfl⟩ := lengthPrefix_eq_ok_iff.1 prefixed
  have header : unitHeaderSize.toNat = 9 := rfl
  have limit : Bytes.limit 4 = 2 ^ 32 := rfl
  rw [unitSize, UInt64.toNat_add, header, UInt64.toNat_ofNat']
  simp
  omega

/-- The size of an element is the number of the bytes of its unit. -/
theorem EncodedElement.length_of_ofElement {element : Element} {encoded : EncodedElement}
    (written : EncodedElement.ofElement element = .ok encoded) :
    encoded.fields.flatten.length = encoded.size.toNat := by
  obtain ⟨kind, body, -, fields, -, size⟩ := EncodedElement.ofElement_eq_ok written
  rw [size, length_of_unitFields fields]

/-- The size of a static row is the number of the bytes of its unit. -/
theorem Row.length_of_staticFields {row : Row} {fields : List Bytes}
    (written : row.staticFields = .ok fields) :
    fields.flatten.length = row.staticSize.toNat := by
  obtain ⟨body, encodes, framed⟩ := Except.bind_eq_ok_iff.1 (liftIo_eq_ok_iff.1 written)
  rw [Row.staticSize, encodes, length_of_unitFields framed]

namespace Partition

/-- What precedes the elements of a partition has the size of its header and its static row. -/
theorem Encoding.length_front {partition : Partition} (encoding : partition.Encoding) :
    encoding.header.flatten.length = (headerSize partition.key).toNat ∧
      encoding.staticRow.flatten.length =
        (partition.writtenStaticRow.elim 0 Row.staticSize).toNat := by
  constructor
  · exact length_of_headerFields encoding.header_eq
  · have written := encoding.staticRow_eq
    cases held : partition.writtenStaticRow with
    | none =>
        rw [encoding.staticRow_of_none held]
        rfl
    | some row =>
        rw [held] at written
        exact Row.length_of_staticFields written

/-- The first element of a partition stands behind its header and its static row. -/
theorem Encoding.toNat_elementsStart {partition : Partition} (encoding : partition.Encoding)
    {position start : UInt64} (begins : partition.elementsStart position = .ok start) :
    start.toNat = position.toNat +
      (encoding.header.flatten.length + encoding.staticRow.flatten.length) := by
  obtain ⟨header, first, second⟩ := Except.bind_eq_ok_iff.1 begins
  have behindHeader := toNat_of_exactSum first
  have behindStatic := toNat_of_exactSum second
  obtain ⟨sizeHeader, sizeStatic⟩ := encoding.length_front
  omega

end Partition

end SortedTable

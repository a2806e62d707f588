import SortedTable.Proofs.Decoder.Exact
import SortedTable.Proofs.Layout.Partition

namespace SortedTable

open Decoder

theorem Deletion.decode_eq_ok_iff {deletion : Deletion} {bytes rest : Bytes} :
    decode bytes = .ok (deletion, rest) ↔ bytes = deletion.encode ++ rest := by
  constructor
  · intro read
    obtain ⟨markedAt, behind, first, read⟩ := bind_eq_ok_iff.1 read
    obtain ⟨localTime, behind', second, same⟩ := bind_eq_ok_iff.1 read
    obtain ⟨rfl, rfl⟩ := pure_eq_ok_iff.1 same
    obtain ⟨word, taken, rfl⟩ := map_eq_ok_iff.1 first
    obtain ⟨word', taken', rfl⟩ := map_eq_ok_iff.1 second
    rw [word64_eq_ok_iff.1 taken, word32_eq_ok_iff.1 taken', encode, List.append_assoc]
    rfl
  · rintro rfl
    exact Deletion.reads_encode deletion rest

namespace Header

/-- The bytes of a header. -/
def encode (header : Header) : Bytes :=
  Bytes.littleEndian 2 header.key.bytes.length ++
    (header.key.bytes ++ (header.deletion.encode ++ [header.flags]))

theorem decode_eq_ok_iff {header : Header} {bytes rest : Bytes} :
    decode bytes = .ok (header, rest) ↔
      header.key.bytes.length < Bytes.limit 2 ∧ bytes = header.encode ++ rest := by
  constructor
  · intro read
    obtain ⟨length, behind, first, read⟩ := bind_eq_ok_iff.1 read
    obtain ⟨key, behind', second, read⟩ := bind_eq_ok_iff.1 read
    obtain ⟨deletion, behind'', third, read⟩ := bind_eq_ok_iff.1 read
    obtain ⟨flags, left, fourth, same⟩ := bind_eq_ok_iff.1 read
    obtain ⟨rfl, rfl⟩ := pure_eq_ok_iff.1 same
    obtain ⟨fits, rfl⟩ := little_eq_ok_iff.1 first
    obtain ⟨size, rfl⟩ := take_eq_ok_iff.1 second
    obtain rfl := Deletion.decode_eq_ok_iff.1 third
    obtain rfl := word8_eq_ok_iff.1 fourth
    refine ⟨by rw [Key.bytes_ofBytes, size]; exact fits, ?_⟩
    simp [encode, size]
  · rintro ⟨fits, rfl⟩
    have reads : Reads decode header.encode
        ⟨.ofBytes header.key.bytes, header.deletion, header.flags⟩ :=
      (Reads.little fits).bind ((Reads.take rfl).bind
        ((Deletion.reads_encode header.deletion).bind ((Reads.word8 header.flags).bindPure rfl)))
    rw [Key.ofBytes_bytes] at reads
    exact reads rest

theorem length_encode (header : Header) (short : header.key.bytes.length < Bytes.limit 2) :
    header.encode.length = (headerSize header.key).toNat := by
  have bound : Bytes.limit 2 < 2 ^ 32 := by decide
  have two : (2 : UInt64).toNat = 2 := rfl
  have twelve : (12 : UInt64).toNat = 12 := rfl
  have one : (1 : UInt64).toNat = 1 := rfl
  simp only [encode, headerSize, UInt64.toNat_add, UInt64.toNat_ofNat', two, twelve, one,
    List.length_append, Bytes.length_littleEndian, Deletion.length_encode, List.length_singleton]
  omega

/-- The bytes of a header decide it. -/
theorem eq_of_encode {left right : Header} (same : left.encode = right.encode)
    (shortLeft : left.key.bytes.length < Bytes.limit 2)
    (shortRight : right.key.bytes.length < Bytes.limit 2) : left = right := by
  have decodes {header : Header} (short : header.key.bytes.length < Bytes.limit 2) :
      decode header.encode = .ok (header, []) :=
    decode_eq_ok_iff.2 ⟨short, (List.append_nil _).symm⟩
  have both := decodes shortRight
  rw [← same, decodes shortLeft] at both
  cases both
  rfl

end Header

/-- A unit in the data: a body behind its kind, its length and its checksum. -/
structure Frame where
  kind : UInt8
  body : Bytes
  live : kind ≠ endKind
  small : body.length ≤ maxUnitBytes

namespace Frame

/-- What stands between the kind and the body. -/
def guard (frame : Frame) : Bytes :=
  Bytes.littleEndian 4 frame.body.length ++ Bytes.word32 (Checksum.crc32 frame.body)

/-- The bytes of a unit with this kind and guard and with this body. -/
def around (frame : Frame) (body : Bytes) : Bytes := frame.kind :: (frame.guard ++ body)

/-- The bytes of a unit. -/
def bytes (frame : Frame) : Bytes := frame.around frame.body

theorem length_bytes (frame : Frame) : frame.bytes.length = 9 + frame.body.length := by
  simp only [bytes, around, guard, List.length_cons, List.length_append, Bytes.length_littleEndian,
    Bytes.length_word32]
  omega

/-- A body of the same length is read behind the guard of a unit if it has the same checksum. -/
theorem decodeBody_around (frame : Frame) (offset : UInt64) {body : Bytes}
    (size : body.length = frame.body.length) (rest : Bytes) :
    decodeBody offset (frame.guard ++ (body ++ rest)) =
      if Checksum.crc32 body = Checksum.crc32 frame.body then .ok (body, rest)
      else .error (.checksumMismatch offset (Checksum.crc32 frame.body) (Checksum.crc32 body)) := by
  have bound : maxUnitBytes < Bytes.limit 4 := by decide
  have small := frame.small
  rw [decodeBody, guard, List.append_assoc, (Reads.little (by omega)).bind_append,
    if_neg (by omega), (Reads.word32 _).bind_append, (Reads.take size).bind_append]
  split <;> rfl

end Frame

/-- A body is read behind its length and its checksum. -/
theorem decodeBody_eq_ok {offset : UInt64} {bytes body rest : Bytes}
    (read : decodeBody offset bytes = .ok (body, rest)) :
    body.length ≤ maxUnitBytes ∧ bytes = Bytes.littleEndian 4 body.length ++
      (Bytes.word32 (Checksum.crc32 body) ++ (body ++ rest)) := by
  obtain ⟨length, behind, first, further⟩ := bind_eq_ok_iff.1 read
  split at further
  · cases further
  · rename_i small
    obtain ⟨expected, behind', second, later⟩ := bind_eq_ok_iff.1 further
    obtain ⟨taken, behind'', third, last⟩ := bind_eq_ok_iff.1 later
    obtain ⟨fits, rfl⟩ := little_eq_ok_iff.1 first
    obtain rfl := word32_eq_ok_iff.1 second
    obtain ⟨rfl, rfl⟩ := take_eq_ok_iff.1 third
    split at last
    · rename_i same
      obtain ⟨rfl, rfl⟩ := pure_eq_ok_iff.1 last
      exact ⟨Nat.le_of_not_lt small, by rw [same]⟩
    · cases last

namespace Units

/-- The number of units that were read. -/
def count (units : Units) : Nat := units.staticRow.toList.length + units.reversed.length

/-- A unit that is added counts; the static row is only taken where there is none. -/
theorem count_add {units added : Units} {announced first : Bool} {offset : UInt64} {kind : UInt8}
    {body : Bytes} (fresh : first = true → units.staticRow = none)
    (taken : units.add announced first offset kind body = .ok added) :
    added.count = units.count + 1 := by
  unfold add at taken
  split at taken
  · rename_i chosen
    simp only [Bool.and_eq_true] at chosen
    obtain ⟨row, -, rfl⟩ := Except.map_eq_ok_iff.1 taken
    simp only [count, fresh chosen.2.1, Option.toList_some, Option.toList_none, List.length_cons,
      List.length_nil]
    omega
  · split at taken
    · obtain ⟨row, -, rfl⟩ := Except.map_eq_ok_iff.1 taken
      simp only [count, List.length_cons]
      omega
    · split at taken
      · obtain ⟨marker, -, rfl⟩ := Except.map_eq_ok_iff.1 taken
        simp only [count, List.length_cons]
        omega
      · cases taken

/-- Units that are read are frames up to an end mark, one for each unit. -/
theorem exists_frames {announced first : Bool} {offset : UInt64} {units result : Units}
    {bytes rest : Bytes} (fresh : first = true → units.staticRow = none)
    (read : decode announced first offset units bytes = .ok (result, rest)) :
    ∃ frames : List Frame, bytes = frames.flatMap Frame.bytes ++ (endMark ++ rest) ∧
      result.count = units.count + frames.length := by
  fun_induction decode announced first offset units bytes with
  | case1 => cases read
  | case2 first offset units behind =>
      cases read
      exact ⟨[], rfl, rfl⟩
  | case3 => cases read
  | case4 => cases read
  | case5 => cases read
  | case6 first offset units kind behind live body behind' framed next place added taken ih =>
      obtain ⟨small, rfl⟩ := decodeBody_eq_ok framed
      obtain ⟨frames, rfl, counted⟩ := ih nofun read
      refine ⟨⟨kind, body, live, small⟩ :: frames, ?_, ?_⟩
      · simp [Frame.bytes, Frame.around, Frame.guard]
      · rw [counted, count_add fresh taken, List.length_cons]
        omega

/-- Behind a unit that was read further units are read. -/
theorem exists_behind_frame {announced first : Bool} {offset : UInt64} {units : Units} {frame : Frame}
    {rest : Bytes} {result : Units × Bytes}
    (read : decode announced first offset units (frame.bytes ++ rest) = .ok result) :
    ∃ (next : UInt64) (added : Units), next.toNat = offset.toNat + frame.bytes.length ∧
      units.add announced first offset frame.kind frame.body = .ok added ∧
      (∀ other, decode announced first offset units (frame.bytes ++ other) =
        decode announced false next added other) ∧
      decode announced false next added rest = .ok result := by
  have body (other : Bytes) := (frame.decodeBody_around offset rfl other).trans (if_pos rfl)
  have shape (other : Bytes) :
      frame.bytes ++ other = frame.kind :: (frame.guard ++ (frame.body ++ other)) := by
    simp [Frame.bytes, Frame.around]
  have step := read
  rw [shape, decode, if_neg frame.live] at step
  split at step
  · cases step
  · rename_i found
    cases (body rest).symm.trans found
    split at step
    · cases step
    · rename_i next place
      split at step
      · cases step
      · rename_i added taken
        have moves (other : Bytes) : decode announced first offset units (frame.bytes ++ other) =
            decode announced false next added other := by
          rw [shape]
          exact decode_unit frame.live (body other) place taken
        have size := toNat_of_exactSum place
        rw [toNat_unitSize frame.small, ← Frame.length_bytes] at size
        exact ⟨next, added, size, taken, moves, (moves rest).symm.trans read⟩

/-- Behind any number of units that were read further units are read. -/
theorem exists_behind_frames {announced first : Bool} {offset : UInt64} {units : Units}
    {before : List Frame} {rest : Bytes} {result : Units × Bytes}
    (read : decode announced first offset units (before.flatMap Frame.bytes ++ rest) = .ok result) :
    ∃ (leading : Bool) (place : UInt64) (held : Units),
      place.toNat = offset.toNat + (before.flatMap Frame.bytes).length ∧
      (∀ other, decode announced first offset units (before.flatMap Frame.bytes ++ other) =
        decode announced leading place held other) ∧
      decode announced leading place held rest = .ok result := by
  induction before generalizing first offset units with
  | nil => exact ⟨first, offset, units, rfl, fun _ => rfl, read⟩
  | cons earlier before ih =>
      rw [List.flatMap_cons, List.append_assoc] at read
      obtain ⟨next, added, step, -, moves, further⟩ := exists_behind_frame read
      obtain ⟨leading, place, held, reached, goes, behind⟩ := ih further
      refine ⟨leading, place, held, ?_, fun other => ?_, behind⟩
      · rw [List.flatMap_cons, List.length_append]
        omega
      · rw [List.flatMap_cons, List.append_assoc, moves, goes]

/-- The units in front of one that was changed are read, and then its checksum does not fit. -/
theorem decode_around {announced first : Bool} {offset : UInt64} {units : Units}
    {before : List Frame} {frame : Frame} {back : Bytes} {result : Units × Bytes}
    (read : decode announced first offset units
      (before.flatMap Frame.bytes ++ (frame.bytes ++ back)) = .ok result) {body : Bytes}
    (size : body.length = frame.body.length)
    (differs : Checksum.crc32 body ≠ Checksum.crc32 frame.body) :
    ∃ place : UInt64, place.toNat = offset.toNat + (before.flatMap Frame.bytes).length ∧
      decode announced first offset units
          (before.flatMap Frame.bytes ++ (frame.around body ++ back)) =
        .error (.checksumMismatch place (Checksum.crc32 frame.body) (Checksum.crc32 body)) := by
  obtain ⟨leading, place, held, reached, goes, -⟩ := exists_behind_frames read
  refine ⟨place, reached, ?_⟩
  have refused := (frame.decodeBody_around place size back).trans (if_neg differs)
  rw [goes, Frame.around, List.cons_append, List.append_assoc, decode, if_neg frame.live]
  split
  · rename_i failed
    cases refused.symm.trans failed
    rfl
  · rename_i found
    cases refused.symm.trans found

end Units

namespace Partition

variable {offset : UInt64} {bytes rest : Bytes} {partition : Partition}

/-- A partition is read by its header, its units, and the check that an announced static row came. -/
theorem decode_eq_ok (read : decode offset bytes = .ok (partition, rest)) :
    ∃ (header : Header) (first : UInt64) (units : Units) (behind : Bytes),
      bytes = header.encode ++ behind ∧ header.key.bytes.length < Bytes.limit 2 ∧
      exactSum offset (headerSize header.key) = .ok first ∧
      Units.decode header.hasStaticRow true first {} behind = .ok (units, rest) ∧
      partition = ⟨header.key, header.deletion, units.staticRow, units.reversed.reverse⟩ := by
  obtain ⟨header, behind, headed, further⟩ := bind_eq_ok_iff.1 read
  obtain ⟨first, behind', placed, later⟩ := bind_eq_ok_iff.1 further
  obtain ⟨units, behind'', followed, last⟩ := bind_eq_ok_iff.1 later
  obtain ⟨short, rfl⟩ := Header.decode_eq_ok_iff.1 headed
  split at placed
  · cases placed
  · rename_i sum
    cases placed
    split at last
    · cases last
    · obtain ⟨same, rfl⟩ := pure_eq_ok_iff.1 last
      exact ⟨header, _, units, behind, rfl, short, sum, followed, same.symm⟩

/-- Bytes that are read are a header, a unit for the static row and each element, and the end mark. -/
theorem exists_frames_of_decode (read : decode offset bytes = .ok (partition, rest)) :
    ∃ (header : Header) (frames : List Frame), header.key = partition.key ∧
      frames.length = partition.staticRow.toList.length + partition.elements.length ∧
      bytes = header.encode ++ (frames.flatMap Frame.bytes ++ (endMark ++ rest)) := by
  obtain ⟨header, first, units, behind, rfl, -, -, followed, rfl⟩ := decode_eq_ok read
  obtain ⟨frames, rfl, counted⟩ := Units.exists_frames (fun _ => rfl) followed
  refine ⟨header, frames, rfl, ?_, rfl⟩
  rw [List.length_reverse]
  exact ((Nat.zero_add _).symm.trans counted.symm)

/-- Behind a header with the key of the partition its units are read, at the place behind the header,
and other units change what is read as they do behind any header. -/
theorem exists_units_of_decode {header : Header} {behind : Bytes} (own : header.key = partition.key)
    (read : decode offset (header.encode ++ behind) = .ok (partition, rest)) :
    ∃ (first : UInt64) (units : Units),
      first.toNat = offset.toNat + header.encode.length ∧
      Units.decode header.hasStaticRow true first {} behind = .ok (units, rest) ∧
      ∀ other, decode offset (header.encode ++ other) =
        (Units.decode header.hasStaticRow true first {} other).bind fun taken =>
          (if header.hasStaticRow && taken.1.staticRow.isNone then
            Decoder.fail (.corrupt (.staticRowLost offset))
          else pure ⟨header.key, header.deletion, taken.1.staticRow, taken.1.reversed.reverse⟩ :
            Decoder TableError Partition) taken.2 := by
  obtain ⟨header', first, units, behind', split, short, sum, followed, rfl⟩ := decode_eq_ok read
  dsimp only at own
  have short' : header.key.bytes.length < Bytes.limit 2 := own ▸ short
  have lengths : header.encode.length = header'.encode.length := by
    rw [header.length_encode short', header'.length_encode short, own]
  obtain ⟨same, rfl⟩ := List.append_inj split lengths
  cases Header.eq_of_encode same short' short
  have start := toNat_of_exactSum sum
  rw [← header.length_encode short] at start
  have headed : Reads Header.decode header.encode header :=
    fun other => Header.decode_eq_ok_iff.2 ⟨short, rfl⟩
  refine ⟨first, units, start, followed, fun other => ?_⟩
  rw [decode, headed.bind_append]
  exact (reads_of_exactSum sum).bind_append _ other

end Partition

end SortedTable

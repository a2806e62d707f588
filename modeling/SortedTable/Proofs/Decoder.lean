import SortedTable.Bytes.Decoder
import SortedTable.Proofs.Outcome

namespace SortedTable

namespace Bytes

@[simp] theorem length_word32 (value : UInt32) : (word32 value).length = 4 :=
  length_littleEndian 4 _

@[simp] theorem length_word64 (value : UInt64) : (word64 value).length = 8 :=
  length_littleEndian 8 _

/-- A text is read back from its bytes. -/
theorem text?_ofText (text : String) : text? (ofText text) = some text := by
  have bytes : (ofText text).toByteArray = text.toByteArray := by
    apply ByteArray.ext
    simp [ofText]
  rw [text?, bytes]
  simp only [String.fromUTF8?, text.isValidUTF8, dif_pos]
  rfl

end Bytes

namespace Decoder

variable {ε α β : Type}

/-- The decoder takes exactly these bytes off the front, whatever follows, and gives this value. -/
def Reads (decoder : Decoder ε α) (encoded : Bytes) (value : α) : Prop :=
  ∀ rest, decoder (encoded ++ rest) = .ok (value, rest)

namespace Reads

theorem pure (value : α) : Reads (Pure.pure value : Decoder ε α) [] value := fun _ => rfl

/-- What follows a value that was read goes on behind its bytes. -/
theorem bind_append {decoder : Decoder ε α} {front : Bytes} {value : α}
    (first : Reads decoder front value) (next : α → Decoder ε β) (rest : Bytes) :
    (decoder >>= next) (front ++ rest) = next value rest := by
  change (decoder (front ++ rest)).bind (fun taken => next taken.1 taken.2) = _
  rw [first]
  rfl

theorem bind {decoder : Decoder ε α} {next : α → Decoder ε β} {front back : Bytes} {value : α}
    {result : β} (first : Reads decoder front value) (second : Reads (next value) back result) :
    Reads (decoder >>= next) (front ++ back) result := by
  intro rest
  rw [List.append_assoc, first.bind_append]
  exact second rest

theorem map {decoder : Decoder ε α} {encoded : Bytes} {value : α} (change : α → β)
    (reads : Reads decoder encoded value) : Reads (change <$> decoder) encoded (change value) := by
  intro rest
  change (decoder (encoded ++ rest)).bind (fun taken => Except.ok (change taken.1, taken.2)) = _
  rw [reads]
  rfl

/-- A value with nothing behind it may be put together from what was read before. -/
theorem bindPure {decoder : Decoder ε α} {encoded : Bytes} {value : α} {result : β}
    {next : α → Decoder ε β} (first : Reads decoder encoded value)
    (second : next value = Pure.pure result) : Reads (decoder >>= next) encoded result := by
  have last : Reads (next value) [] result := second ▸ Reads.pure result
  simpa using first.bind last

variable [OfIoError ε]

theorem take {bytes : Bytes} {count : Nat} (size : bytes.length = count) :
    Reads (Decoder.take count : Decoder ε Bytes) bytes bytes := by
  subst size
  exact take_append bytes

theorem little {width value : Nat} (fits : value < Bytes.limit width) :
    Reads (Decoder.little width : Decoder ε Nat) (Bytes.littleEndian width value) value := by
  have reads : Reads (Decoder.little width : Decoder ε Nat) _ _ :=
    map Bytes.ofLittleEndian (take (Bytes.length_littleEndian width value))
  rwa [Bytes.ofLittleEndian_littleEndian_of_lt fits] at reads

theorem big {width value : Nat} (fits : value < Bytes.limit width) :
    Reads (Decoder.big width : Decoder ε Nat) (Bytes.bigEndian width value) value := by
  have reads : Reads (Decoder.big width : Decoder ε Nat) _ _ :=
    map Bytes.ofBigEndian (take (Bytes.length_bigEndian width value))
  rwa [Bytes.ofBigEndian_bigEndian_of_lt fits] at reads

theorem word8 (byte : UInt8) : Reads (Decoder.word8 : Decoder ε UInt8) [byte] byte := by
  have encoded : Bytes.littleEndian 1 byte.toNat = [byte] := by simp [Bytes.littleEndian]
  have fits : byte.toNat < Bytes.limit 1 := byte.toNat_lt
  have reads : Reads (Decoder.word8 : Decoder ε UInt8) _ _ := map UInt8.ofNat (little fits)
  rwa [encoded, UInt8.ofNat_toNat] at reads

theorem word32 (value : UInt32) :
    Reads (Decoder.word32 : Decoder ε UInt32) (Bytes.word32 value) value := by
  have fits : value.toNat < Bytes.limit 4 := value.toNat_lt
  have reads : Reads (Decoder.word32 : Decoder ε UInt32) _ _ := map UInt32.ofNat (little fits)
  rwa [UInt32.ofNat_toNat] at reads

theorem word64 (value : UInt64) :
    Reads (Decoder.word64 : Decoder ε UInt64) (Bytes.word64 value) value := by
  have fits : value.toNat < Bytes.limit 8 := value.toNat_lt
  have reads : Reads (Decoder.word64 : Decoder ε UInt64) _ _ := map UInt64.ofNat (little fits)
  rwa [UInt64.ofNat_toNat] at reads

theorem int32 (value : Int32) :
    Reads (Decoder.int32 : Decoder ε Int32) (Bytes.word32 value.toUInt32) value := by
  have reads : Reads (Decoder.int32 : Decoder ε Int32) _ _ :=
    map UInt32.toInt32 (word32 value.toUInt32)
  rwa [Int32.toInt32_toUInt32] at reads

theorem int64 (value : Int64) :
    Reads (Decoder.int64 : Decoder ε Int64) (Bytes.word64 value.toUInt64) value := by
  have reads : Reads (Decoder.int64 : Decoder ε Int64) _ _ :=
    map UInt64.toInt64 (word64 value.toUInt64)
  rwa [Int64.toInt64_toUInt64] at reads

end Reads

theorem manyAfter_of_reads {item : Decoder ε α} {encoded : List Bytes} {values : List α}
    (each : List.Forall₂ (Reads item) encoded values) (before : List α) (rest : Bytes) :
    manyAfter item values.length before (encoded.flatten ++ rest) =
      .ok (before.reverse ++ values, rest) := by
  induction each generalizing before with
  | nil => simp [manyAfter]
  | @cons front value others values reads _ ih =>
      rw [List.length_cons, List.flatten_cons, List.append_assoc, manyAfter]
      dsimp only
      rw [reads]
      simp [ih]

/-- Items that are read one by one are read in a row. -/
theorem Reads.many {item : Decoder ε α} {encoded : List Bytes} {values : List α} {count : Nat}
    (size : values.length = count) (each : List.Forall₂ (Reads item) encoded values) :
    Reads (Decoder.many item count) encoded.flatten values := by
  intro rest
  subst size
  rw [Decoder.many, manyAfter_of_reads each]
  rfl

end Decoder

end SortedTable

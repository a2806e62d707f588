import SortedTable.Layout.IndexEntry
import SortedTable.Layout.Statistics
import SortedTable.Filter.Stored
import SortedTable.Proofs.Bytes
import SortedTable.Proofs.Layout.Partition

namespace SortedTable

namespace Decoder

variable {ε α β : Type}

/-- What the decoder reads stays the same when bytes are put behind its input. -/
def IsStable (decoder : Decoder ε α) : Prop :=
  ∀ bytes more value rest, decoder bytes = .ok (value, rest) →
    decoder (bytes ++ more) = .ok (value, rest ++ more)

namespace IsStable

theorem pure (value : α) : IsStable (Pure.pure value : Decoder ε α) := by
  rintro bytes more _ _ ⟨⟩
  rfl

theorem fail (error : ε) : IsStable (Decoder.fail error : Decoder ε α) := nofun

theorem bind {decoder : Decoder ε α} {next : α → Decoder ε β} (first : IsStable decoder)
    (second : ∀ value, IsStable (next value)) : IsStable (decoder >>= next) := by
  intro bytes more value rest read
  obtain ⟨⟨front, behind⟩, taken, further⟩ := Except.bind_eq_ok_iff.1 read
  exact Except.bind_eq_ok_iff.2
    ⟨(front, behind ++ more), first _ more _ _ taken, second front _ more _ _ further⟩

theorem map {decoder : Decoder ε α} (stable : IsStable decoder) (change : α → β) :
    IsStable (change <$> decoder) := stable.bind fun _ => .pure _

/-- A part of given length is the same with bytes behind it, however a shorter input fails. -/
theorem part (count : Nat) (short : Bytes → ε) : IsStable (fun bytes =>
    if (bytes.take count).length = count then .ok (bytes.take count, bytes.drop count)
    else .error (short bytes) : Decoder ε Bytes) := by
  intro bytes more value rest read
  dsimp only at read ⊢
  split at read
  · rename_i enough
    rw [List.length_take] at enough
    cases read
    rw [List.take_append_of_le_length (by omega), List.drop_append_of_le_length (by omega),
      if_pos (by rw [List.length_take]; exact enough)]
  · cases read

theorem take [OfIoError ε] (count : Nat) : IsStable (Decoder.take count : Decoder ε Bytes) :=
  part count fun _ => OfIoError.ofIoError .unexpectedEnd

theorem little [OfIoError ε] (width : Nat) : IsStable (Decoder.little width : Decoder ε Nat) :=
  (take width).map _

theorem big [OfIoError ε] (width : Nat) : IsStable (Decoder.big width : Decoder ε Nat) :=
  (take width).map _

theorem word8 [OfIoError ε] : IsStable (Decoder.word8 : Decoder ε UInt8) := (little 1).map _

theorem word32 [OfIoError ε] : IsStable (Decoder.word32 : Decoder ε UInt32) := (little 4).map _

theorem word64 [OfIoError ε] : IsStable (Decoder.word64 : Decoder ε UInt64) := (little 8).map _

theorem int32 [OfIoError ε] : IsStable (Decoder.int32 : Decoder ε Int32) := word32.map _

theorem int64 [OfIoError ε] : IsStable (Decoder.int64 : Decoder ε Int64) := word64.map _

theorem manyAfter {item : Decoder ε α} (stable : IsStable item) (count : Nat) (before : List α) :
    IsStable (Decoder.manyAfter item count before) := by
  induction count generalizing before with
  | zero =>
      rintro bytes more _ _ ⟨⟩
      rfl
  | succ count ih =>
      intro bytes more value rest read
      rw [Decoder.manyAfter] at read ⊢
      dsimp only at read ⊢
      split at read
      · rename_i first behind taken
        rw [stable _ more _ _ taken]
        exact ih (first :: before) _ more _ _ read
      · cases read

theorem many {item : Decoder ε α} (stable : IsStable item) (count : Nat) :
    IsStable (Decoder.many item count) := stable.manyAfter count []

end IsStable

/-- The decoder runs out of bytes on every strict front part of these. -/
def RunsOut [OfIoError ε] (decoder : Decoder ε α) (encoded : Bytes) : Prop :=
  ∀ front, front <+: encoded → front ≠ encoded →
    decoder front = .error (OfIoError.ofIoError .unexpectedEnd)

namespace RunsOut

variable [OfIoError ε] {decoder : Decoder ε α} {encoded back : Bytes} {value : α}

theorem take {bytes : Bytes} {count : Nat} (size : bytes.length = count) :
    RunsOut (Decoder.take count : Decoder ε Bytes) bytes := by
  intro front cut strict
  have shorter : front.length < count := by
    rw [← size]
    exact Nat.lt_of_le_of_ne cut.length_le fun same => strict (cut.eq_of_length same)
  rw [Decoder.take, if_neg]
  rw [List.length_take]
  omega

/-- What follows a decoder that runs out of bytes is not reached. -/
theorem bindLast (short : RunsOut decoder encoded) (next : α → Decoder ε β) :
    RunsOut (decoder >>= next) encoded := by
  intro front cut strict
  change (decoder front).bind (fun taken => next taken.1 taken.2) = _
  rw [short front cut strict]
  rfl

theorem map (short : RunsOut decoder encoded) (change : α → β) :
    RunsOut (change <$> decoder) encoded := short.bindLast fun value => Pure.pure (change value)

theorem little (width value : Nat) :
    RunsOut (Decoder.little width : Decoder ε Nat) (Bytes.littleEndian width value) :=
  (take (Bytes.length_littleEndian width value)).map _

theorem word64 (value : UInt64) :
    RunsOut (Decoder.word64 : Decoder ε UInt64) (Bytes.word64 value) :=
  (little 8 value.toNat).map _

/-- A cut lies in the bytes of the first part or in those of the second. -/
theorem bind {next : α → Decoder ε β} (reads : Reads decoder encoded value)
    (short : RunsOut decoder encoded) (short' : RunsOut (next value) back) :
    RunsOut (decoder >>= next) (encoded ++ back) := by
  intro front cut strict
  obtain ⟨inside, strict'⟩ | ⟨rest, rfl, inside⟩ := Bytes.prefix_append_cases cut
  · exact short.bindLast next front inside strict'
  · rw [reads.bind_append]
    exact short' rest inside fun same => strict (congrArg (encoded ++ ·) same)

end RunsOut

end Decoder

theorem Deletion.isStable_decode : Decoder.IsStable Deletion.decode :=
  .bind .int64 fun _ => .bind .int32 fun _ => .pure _

theorem isStable_takePart (component : Component) (length : Nat) :
    Decoder.IsStable (takePart component length) :=
  .part length fun bytes => TableError.corrupt (.partTooLong component length bytes.length)

theorem Clustering.isStable_decode (component : Component) :
    Decoder.IsStable (Clustering.decode component) :=
  .bind (.little 2) fun count =>
    .many (.bind (.little 4) fun _ => isStable_takePart component _) count

theorem Cell.isStable_decode : Decoder.IsStable Cell.decode := by
  refine .bind (.little 2) fun _ => .bind (isStable_takePart _ _) fun name => ?_
  split
  · exact .fail _
  · refine .bind .int64 fun timestamp => .bind .word8 fun flags => ?_
    split
    · exact .pure _
    · exact .bind (.little 4) fun _ => .bind (isStable_takePart _ _) fun value => .pure _

theorem Row.isStable_decodeFront : Decoder.IsStable Row.decodeFront :=
  .bind (Clustering.isStable_decode _) fun _ => .bind Deletion.isStable_decode fun _ =>
    .bind (.little 4) fun count => .bind (.many Cell.isStable_decode count) fun _ => .pure _

theorem Marker.isStable_decodeFront : Decoder.IsStable Marker.decodeFront := by
  refine .bind .word8 fun code => .bind (Clustering.isStable_decode _) fun _ =>
    .bind Deletion.isStable_decode fun _ => ?_
  split
  · exact .pure _
  · exact .fail _

theorem Block.isStable_decode : Decoder.IsStable Block.decode :=
  .bind (Clustering.isStable_decode _) fun _ => .bind (Clustering.isStable_decode _) fun _ =>
    .bind .word64 fun _ => .bind .word64 fun _ => .pure _

theorem Header.isStable_decode : Decoder.IsStable Header.decode :=
  .bind (.little 2) fun _ => .bind (.take _) fun _ => .bind Deletion.isStable_decode fun _ =>
    .bind .word8 fun _ => .pure _

theorem isStable_decodeBody (offset : UInt64) : Decoder.IsStable (decodeBody offset) := by
  refine .bind (.little 4) fun length => ?_
  split
  · exact .fail _
  · refine .bind .word32 fun expected => .bind (.take length) fun body => ?_
    dsimp only
    split
    · exact .pure body
    · exact .fail _

theorem Units.isStable_decode (announced first : Bool) (offset : UInt64) (units : Units) :
    Decoder.IsStable (Units.decode announced first offset units) := by
  intro bytes
  fun_induction Units.decode announced first offset units bytes with
  | case1 => nofun
  | case2 first offset units behind =>
      rintro more _ _ ⟨⟩
      exact decode_endMark announced first offset units (behind ++ more)
  | case3 => nofun
  | case4 => nofun
  | case5 => nofun
  | case6 first offset units kind behind live body rest read next place added taken ih =>
      intro more value left further
      rw [List.cons_append, decode_unit live (isStable_decodeBody offset _ more _ _ read) place taken]
      exact ih more value left further

theorem Partition.isStable_decode (offset : UInt64) : Decoder.IsStable (Partition.decode offset) := by
  refine .bind Header.isStable_decode fun header => .bind ?_ fun first =>
    .bind (Units.isStable_decode _ _ _ _) fun units => ?_
  · intro bytes more value rest read
    dsimp only at read ⊢
    split at read
    · cases read
    · cases read
      rfl
  · split
    · exact .fail _
    · exact .pure _

theorem Statistics.isStable_decodeBody : Decoder.IsStable Statistics.decodeBody :=
  .bind .word64 fun _ => .bind .word64 fun _ => .bind .word64 fun _ => .bind .word64 fun _ =>
    .bind .int64 fun _ => .bind .int64 fun _ => .bind (.little 2) fun _ => .bind (.take _) fun _ =>
      .bind (.little 2) fun _ => .bind (.take _) fun _ => .bind .word64 fun _ => .pure _

end SortedTable

import SortedTable.Bytes
import SortedTable.IoError

namespace SortedTable

/-- A decoder reads a value off the remaining bytes or fails. -/
abbrev Decoder (ε α : Type) := StateT Bytes (Except ε) α

namespace Decoder

variable {ε α β : Type}

/-- The decoder stops with this error. -/
def fail (error : ε) : Decoder ε α := fun _ => .error error

/-- This decoder takes exactly `count` bytes; an input that ends before is an error. -/
def take [OfIoError ε] (count : Nat) : Decoder ε Bytes := fun bytes =>
  let taken := bytes.take count
  if taken.length = count then .ok (taken, bytes.drop count)
  else .error (OfIoError.ofIoError .unexpectedEnd)

theorem take_append [OfIoError ε] (front rest : Bytes) :
    (take front.length : Decoder ε Bytes) (front ++ rest) = .ok (front, rest) := by
  simp [take]

/-- A number of `width` bytes, the least significant one first. -/
def little [OfIoError ε] (width : Nat) : Decoder ε Nat := Bytes.ofLittleEndian <$> take width

/-- A number of `width` bytes, the most significant one first. -/
def big [OfIoError ε] (width : Nat) : Decoder ε Nat := Bytes.ofBigEndian <$> take width

def word8 [OfIoError ε] : Decoder ε UInt8 := UInt8.ofNat <$> little 1

def word32 [OfIoError ε] : Decoder ε UInt32 := UInt32.ofNat <$> little 4

def word64 [OfIoError ε] : Decoder ε UInt64 := UInt64.ofNat <$> little 8

def int32 [OfIoError ε] : Decoder ε Int32 := UInt32.toInt32 <$> word32

def int64 [OfIoError ε] : Decoder ε Int64 := UInt64.toInt64 <$> word64

/-- Reads `count` items and puts them, in order, behind those read before. -/
def manyAfter (item : Decoder ε α) : Nat → List α → Decoder ε (List α)
  | 0, before => fun bytes => .ok (before.reverse, bytes)
  | count + 1, before => fun bytes =>
      match item bytes with
      | .ok (value, rest) => manyAfter item count (value :: before) rest
      | .error error => .error error

/-- Reads `count` items in a row. -/
def many (item : Decoder ε α) (count : Nat) : Decoder ε (List α) := manyAfter item count []

/-- A decoder that leaves an end of what it was given. -/
def LeavesEnd (decoder : Decoder ε α) : Prop :=
  ∀ bytes value rest, decoder bytes = .ok (value, rest) → rest <:+ bytes

namespace LeavesEnd

theorem pure (value : α) : LeavesEnd (Pure.pure value : Decoder ε α) := by
  intro bytes found rest read
  cases read
  exact List.suffix_refl bytes

theorem fail (error : ε) : LeavesEnd (Decoder.fail error : Decoder ε α) := by
  intro bytes value rest read
  cases read

theorem bind {decoder : Decoder ε α} {next : α → Decoder ε β} (first : LeavesEnd decoder)
    (second : ∀ value, LeavesEnd (next value)) : LeavesEnd (decoder >>= next) := by
  intro bytes value rest read
  change (decoder bytes).bind (fun result => next result.1 result.2) = _ at read
  cases step : decoder bytes with
  | error error => rw [step] at read; cases read
  | ok result =>
      rw [step] at read
      exact (second _ _ _ _ read).trans (first _ _ _ step)

theorem map {decoder : Decoder ε α} (change : α → β) (leaves : LeavesEnd decoder) :
    LeavesEnd (change <$> decoder) := by
  intro bytes value rest read
  change (decoder bytes).bind (fun result => Except.ok (change result.1, result.2)) = _ at read
  cases step : decoder bytes with
  | error error => rw [step] at read; cases read
  | ok result =>
      rw [step] at read
      cases read
      exact leaves _ _ _ step

theorem take [OfIoError ε] (count : Nat) : LeavesEnd (Decoder.take count : Decoder ε Bytes) := by
  intro bytes value rest read
  simp only [Decoder.take] at read
  split at read
  · cases read
    exact List.drop_suffix count bytes
  · cases read

theorem little [OfIoError ε] (width : Nat) : LeavesEnd (Decoder.little width : Decoder ε Nat) :=
  map _ (take width)

theorem word32 [OfIoError ε] : LeavesEnd (Decoder.word32 : Decoder ε UInt32) := map _ (little 4)

end LeavesEnd

end Decoder

end SortedTable

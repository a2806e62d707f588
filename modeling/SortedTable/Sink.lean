import SortedTable.Bytes
import SortedTable.IoError

namespace SortedTable

/-- What a sink does with a request to write. -/
inductive WriteAnswer where
  /-- It takes the whole request. -/
  | all
  /-- It takes at most this many bytes off the front. -/
  | atMost (count : Nat)
  | fail (cause : IoError)
  deriving DecidableEq, Repr

theorem WriteAnswer.all_ne_fail (cause : IoError) : WriteAnswer.all ≠ .fail cause := nofun

/-- How a sink behaves, by the number of requests before and of bytes taken before. -/
structure SinkPlan where
  write : (requests taken : Nat) → WriteAnswer := fun _ _ => .all
  /-- From this request on none is interrupted. -/
  calm : Nat := 0
  settles : ∀ requests taken, calm ≤ requests → write requests taken ≠ .fail .interrupted := by
    exact fun _ _ _ => WriteAnswer.all_ne_fail _
  /-- Whether the bytes that it takes reach the file. -/
  keeps : Bool := true
  flush : Option IoError := none
  sync : Option IoError := none

instance : Inhabited SinkPlan := ⟨{}⟩

/-- Counts the requests made to a sink and the bytes that it took. -/
structure Tracker where
  requests : Nat := 0
  taken : Nat := 0
  deriving DecidableEq, Inhabited

namespace Tracker

/-- The offset at which the next byte will land. -/
def position (tracker : Tracker) : UInt64 := UInt64.ofNat tracker.taken

/-- Notes a request of which the sink took `count` bytes. -/
def advance (tracker : Tracker) (count : Nat) : Tracker where
  requests := tracker.requests + 1
  taken := tracker.taken + count

end Tracker

/-- What became of a request: the parts that the sink took, in order, and why it stopped, if it did. -/
structure Transfer where
  parts : List Bytes
  tracker : Tracker
  fault : Option IoError

namespace SinkPlan

/-- A sink that takes at most `chunk` bytes at once and `limit` in all, and then nothing, or fails. -/
def limited (chunk limit : Option Nat) (reason : Option String) : SinkPlan where
  write := fun _ taken =>
    if limit.any (· ≤ taken) then reason.elim (.atMost 0) fun reason => .fail (.other reason)
    else
      match chunk, limit.map (· - taken) with
      | none, none => .all
      | some count, none => .atMost count
      | none, some left => .atMost left
      | some count, some left => .atMost (min count left)
  settles := by
    intro requests taken _
    split
    · cases reason <;> nofun
    · split <;> nofun

theorem lt_calm {plan : SinkPlan} {requests taken : Nat}
    (interrupted : plan.write requests taken = .fail .interrupted) : requests < plan.calm :=
  Nat.lt_of_not_le fun late => plan.settles requests taken late interrupted

/-- Makes a single request. -/
def request (plan : SinkPlan) (tracker : Tracker) (bytes : Bytes) : Transfer :=
  match plan.write tracker.requests tracker.taken with
  | .fail cause => ⟨[], tracker.advance 0, some cause⟩
  | .all => ⟨[bytes], tracker.advance bytes.length, none⟩
  | .atMost count =>
      let part := bytes.take count
      ⟨[part], tracker.advance part.length, none⟩

/-- Makes requests until the sink took all bytes; one that is interrupted is made again. -/
def writeAll (plan : SinkPlan) (tracker : Tracker) (bytes : Bytes) : Transfer :=
  match bytes with
  | [] => ⟨[], tracker, none⟩
  | first :: rest =>
      if plan.write tracker.requests tracker.taken = .fail .interrupted then
        plan.writeAll (tracker.advance 0) (first :: rest)
      else
        match plan.write tracker.requests tracker.taken with
        | .fail cause => ⟨[], tracker.advance 0, some cause⟩
        | .all => ⟨[first :: rest], tracker.advance (first :: rest).length, none⟩
        | .atMost 0 => ⟨[], tracker.advance 0, some .writeZero⟩
        | .atMost (count + 1) =>
            let part := first :: rest.take count
            let transfer := plan.writeAll (tracker.advance part.length) (rest.drop count)
            { transfer with parts := part :: transfer.parts }
termination_by bytes.length + (plan.calm - tracker.requests)
decreasing_by
  · rename_i interrupted
    have early := lt_calm interrupted
    simp only [Tracker.advance]
    omega
  · simp only [Tracker.advance, List.length_cons, List.length_drop]
    omega

/-- What was written whole is the parts that were taken, in order. -/
theorem flatten_parts_writeAll (plan : SinkPlan) (tracker : Tracker) (bytes : Bytes)
    (whole : (plan.writeAll tracker bytes).fault = none) :
    (plan.writeAll tracker bytes).parts.flatten = bytes := by
  induction tracker, bytes using writeAll.induct plan with
  | case1 tracker => simp [writeAll]
  | case2 tracker first rest interrupted ih =>
      rw [writeAll, if_pos interrupted] at whole ⊢
      exact ih whole
  | case3 tracker first rest lasting cause answer =>
      rw [writeAll, if_neg lasting, answer] at whole
      cases whole
  | case4 tracker first rest lasting answer =>
      rw [writeAll, if_neg lasting, answer]
      exact List.flatten_singleton
  | case5 tracker first rest lasting answer =>
      rw [writeAll, if_neg lasting, answer] at whole
      cases whole
  | case6 tracker first rest lasting count answer part ih =>
      rw [writeAll, if_neg lasting, answer] at whole ⊢
      exact (congrArg (part ++ ·) (ih whole)).trans (List.take_append_drop (count + 1) (first :: rest))

end SinkPlan

end SortedTable

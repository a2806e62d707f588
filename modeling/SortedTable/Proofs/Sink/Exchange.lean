import SortedTable.Proofs.Outcome
import SortedTable.Sink.Call

namespace SortedTable

/-- A request to a sink and the part of it that was taken, or the reason why it failed. -/
structure Exchange where
  request : Bytes
  part : Bytes
  fault : Option IoError

namespace Exchange

/-- All that a sink took, in order. -/
def accepted (exchanges : List Exchange) : Bytes := exchanges.flatMap part

/-- Each request is for all that those before it have left of the bytes. -/
def Ask : Bytes → List Exchange → Prop
  | _, [] => True
  | bytes, exchange :: rest =>
      exchange.request = bytes ∧ Ask (bytes.drop exchange.part.length) rest

@[simp] theorem accepted_nil : accepted [] = [] := rfl

@[simp] theorem accepted_cons (exchange : Exchange) (exchanges : List Exchange) :
    accepted (exchange :: exchanges) = exchange.part ++ accepted exchanges :=
  List.flatMap_cons

@[simp] theorem accepted_append (before after : List Exchange) :
    accepted (before ++ after) = accepted before ++ accepted after :=
  List.flatMap_append

end Exchange

/-- What an answer to a request means. -/
def WriteAnswer.exchange (request : Bytes) : WriteAnswer → Exchange
  | .all => ⟨request, request, none⟩
  | .atMost count => ⟨request, request.take count, none⟩
  | .fail cause => ⟨request, [], some cause⟩

@[simp] theorem WriteAnswer.request_exchange (answer : WriteAnswer) (request : Bytes) :
    (answer.exchange request).request = request := by
  cases answer <;> rfl

theorem WriteAnswer.part_prefix (answer : WriteAnswer) (request : Bytes) :
    (answer.exchange request).part <+: request := by
  cases answer with
  | all => exact List.prefix_rfl
  | atMost count => exact List.take_prefix count request
  | fail cause => exact List.nil_prefix

/-- The exchanges with a sink, which answers by how often it was asked and how much it took before. -/
inductive SinkPlan.History (plan : SinkPlan) : List Exchange → Prop
  | nil : History plan []
  | snoc {before : List Exchange} (history : History plan before) (request : Bytes) :
      History plan (before ++
        [(plan.write before.length (Exchange.accepted before).length).exchange request])

/-- The exchanges that a call makes, and the fault that it ends with. -/
structure WriteCall.Makes (call : WriteCall) (exchanges : List Exchange) (fault : Option IoError) :
    Prop where
  asks : Exchange.Ask call.bytes exchanges
  within : Exchange.accepted exchanges <+: call.bytes
  once : ∀ bytes, call = .once bytes → ∃ exchange, exchanges = [exchange] ∧ fault = exchange.fault
  whole : ∀ bytes, call = .whole bytes → (fault = none ↔ Exchange.accepted exchanges = bytes)
  patient : ∀ bytes, call = .whole bytes → fault ≠ some .interrupted
  /-- A request is only followed by another if it was interrupted or something was taken of it. -/
  goes : ∀ exchange ∈ exchanges.dropLast,
    exchange.fault = some .interrupted ∨ exchange.fault = none ∧ exchange.part ≠ []
  /-- The last request failed, or nothing was taken of it. -/
  blames : ∀ cause, fault = some cause → ∃ last, exchanges.getLast? = some last ∧
    (last.fault = some cause ∨ last.fault = none ∧ last.part = [] ∧ cause = .writeZero)

namespace WriteCall.Makes

variable {exchanges : List Exchange} {bytes left : Bytes} {fault : Option IoError}

theorem single (exchange : Exchange) (asked : exchange.request = bytes)
    (part : exchange.part <+: bytes) : (WriteCall.once bytes).Makes [exchange] exchange.fault where
  asks := ⟨asked, trivial⟩
  within := by
    rw [Exchange.accepted_cons, Exchange.accepted_nil, List.append_nil]
    exact part
  once := by
    rintro _ ⟨⟩
    exact ⟨exchange, rfl, rfl⟩
  whole := nofun
  patient := nofun
  goes := nofun
  blames _ failed := ⟨exchange, rfl, .inl failed⟩

theorem nothing : (WriteCall.whole []).Makes [] none where
  asks := trivial
  within := List.nil_prefix
  once := nofun
  whole := by
    rintro _ ⟨⟩
    exact ⟨fun _ => rfl, fun _ => rfl⟩
  patient := nofun
  goes := nofun
  blames := nofun

/-- A request of which nothing was taken, without being interrupted, is the last one. -/
theorem stopped (failed : Option IoError) {cause : IoError} (nonempty : bytes ≠ [])
    (lasting : cause ≠ .interrupted)
    (stops : failed = some cause ∨ failed = none ∧ cause = .writeZero) :
    (WriteCall.whole bytes).Makes [⟨bytes, [], failed⟩] (some cause) where
  asks := ⟨rfl, trivial⟩
  within := List.nil_prefix
  once := nofun
  whole := by
    rintro _ ⟨⟩
    exact ⟨nofun, fun same => absurd same.symm nonempty⟩
  patient _ _ := by simpa using lasting
  goes := nofun
  blames := by
    rintro _ ⟨⟩
    exact ⟨_, rfl, stops.imp_right fun ⟨calm, zero⟩ => ⟨calm, rfl, zero⟩⟩

/-- Behind a request that was interrupted or taken in part, the call goes on with what is left. -/
theorem further {part : Bytes} {failed : Option IoError} (split : part ++ left = bytes)
    (on : failed = some .interrupted ∨ failed = none ∧ part ≠ [])
    (rest : (WriteCall.whole left).Makes exchanges fault) :
    (WriteCall.whole bytes).Makes (⟨bytes, part, failed⟩ :: exchanges) fault where
  asks := by
    refine ⟨rfl, ?_⟩
    have behind : bytes.drop part.length = left := by rw [← split, List.drop_left]
    change Exchange.Ask (bytes.drop part.length) exchanges
    rw [behind]
    exact rest.asks
  within := by
    change _ <+: bytes
    rw [Exchange.accepted_cons, ← split]
    exact (List.prefix_append_right_inj part).2 rest.within
  once := nofun
  whole := by
    rintro _ ⟨⟩
    rw [Exchange.accepted_cons, ← split, List.append_cancel_left_eq]
    exact rest.whole left rfl
  patient _ _ := rest.patient left rfl
  goes exchange member := by
    cases exchanges with
    | nil => cases member
    | cons next others =>
        rw [List.dropLast_cons_cons, List.mem_cons] at member
        rcases member with rfl | member
        · exact on
        · exact rest.goes exchange member
  blames cause failed := by
    obtain ⟨last, ends, stops⟩ := rest.blames cause failed
    refine ⟨last, ?_, stops⟩
    rw [List.getLast?_cons, ends]
    rfl

end WriteCall.Makes

/-- The tracker counts the exchanges and the bytes that were taken in them. -/
structure Tracker.Follows (tracker : Tracker) (history : List Exchange) : Prop where
  requests : tracker.requests = history.length
  taken : tracker.taken = (Exchange.accepted history).length

theorem Tracker.Follows.advance {tracker : Tracker} {history : List Exchange}
    (follows : tracker.Follows history) (exchange : Exchange) :
    (tracker.advance exchange.part.length).Follows (history ++ [exchange]) where
  requests := by simp [Tracker.advance, follows.requests]
  taken := by simp [Tracker.advance, follows.taken]

namespace SinkPlan

variable {plan : SinkPlan} {tracker : Tracker} {history exchanges : List Exchange}

/-- The sink had exchanges that a call makes, and what came of the call agrees with them. -/
structure Confirms (plan : SinkPlan) (history : List Exchange) (call : WriteCall) (transfer : Transfer)
    (exchanges : List Exchange) : Prop where
  made : call.Makes exchanges transfer.fault
  held : plan.History (history ++ exchanges)
  follows : transfer.tracker.Follows (history ++ exchanges)
  parts : transfer.parts.flatten = Exchange.accepted exchanges

/-- One more request to a sink. -/
theorem History.ask (held : plan.History history) (follows : tracker.Follows history)
    {answer : WriteAnswer} (answered : plan.write tracker.requests tracker.taken = answer)
    (request : Bytes) : plan.History (history ++ [answer.exchange request]) := by
  rw [← answered, follows.requests, follows.taken]
  exact held.snoc request

theorem request_eq (plan : SinkPlan) (tracker : Tracker) (bytes : Bytes) :
    let exchange := (plan.write tracker.requests tracker.taken).exchange bytes
    (plan.request tracker bytes).tracker = tracker.advance exchange.part.length ∧
      (plan.request tracker bytes).fault = exchange.fault ∧
      (plan.request tracker bytes).parts.flatten = exchange.part := by
  cases answer : plan.write tracker.requests tracker.taken <;>
    simp [request, answer, WriteAnswer.exchange]

theorem confirms_request (held : plan.History history) (follows : tracker.Follows history)
    (bytes : Bytes) : plan.Confirms history (.once bytes) (plan.request tracker bytes)
      [(plan.write tracker.requests tracker.taken).exchange bytes] := by
  obtain ⟨moved, failed, parts⟩ := plan.request_eq tracker bytes
  refine ⟨?_, held.ask follows rfl bytes, ?_, ?_⟩
  · rw [failed]
    exact .single _ (WriteAnswer.request_exchange _ bytes) (WriteAnswer.part_prefix _ bytes)
  · rw [moved]
    exact follows.advance _
  · rw [parts, Exchange.accepted_cons, Exchange.accepted_nil, List.append_nil]

theorem exists_confirms_writeAll (held : plan.History history) (follows : tracker.Follows history)
    (bytes : Bytes) :
    ∃ exchanges, plan.Confirms history (.whole bytes) (plan.writeAll tracker bytes) exchanges := by
  induction tracker, bytes using writeAll.induct plan generalizing history with
  | case1 tracker =>
      rw [writeAll]
      exact ⟨[], .nothing, by rwa [List.append_nil], by rwa [List.append_nil], rfl⟩
  | case2 tracker first rest interrupted =>
      rename_i rec
      obtain ⟨exchanges, made, held, follows, parts⟩ :=
        rec (held.ask follows interrupted (first :: rest))
          (follows.advance ⟨first :: rest, [], some .interrupted⟩)
      have made := made.further (List.nil_append (first :: rest)) (.inl rfl)
      rw [List.append_assoc] at held follows
      rw [writeAll, if_pos interrupted]
      exact ⟨_, made, held, follows, parts⟩
  | case3 tracker first rest lasting cause answer =>
      have ends : cause ≠ .interrupted := by
        rintro rfl
        exact lasting answer
      have made := WriteCall.Makes.stopped (some cause) (List.cons_ne_nil first rest) ends (.inl rfl)
      rw [writeAll, if_neg lasting, answer]
      exact ⟨_, made, held.ask follows answer (first :: rest),
        follows.advance ⟨first :: rest, [], some cause⟩, rfl⟩
  | case4 tracker first rest lasting answer =>
      have made := WriteCall.Makes.nothing.further (List.append_nil (first :: rest))
        (.inr ⟨rfl, List.cons_ne_nil first rest⟩)
      rw [writeAll, if_neg lasting, answer]
      exact ⟨_, made, held.ask follows answer (first :: rest),
        follows.advance ⟨first :: rest, first :: rest, none⟩, rfl⟩
  | case5 tracker first rest lasting answer =>
      have ends : IoError.writeZero ≠ .interrupted := by decide
      have made := WriteCall.Makes.stopped none (List.cons_ne_nil first rest) ends (.inr ⟨rfl, rfl⟩)
      rw [writeAll, if_neg lasting, answer]
      exact ⟨_, made, held.ask follows answer (first :: rest),
        follows.advance ⟨first :: rest, [], none⟩, rfl⟩
  | case6 tracker first rest lasting count answer part =>
      rename_i rec
      -- the rest of the call goes on behind the part that was taken
      obtain ⟨exchanges, made, held, follows, parts⟩ :=
        rec (held.ask follows answer (first :: rest)) (follows.advance ⟨first :: rest, part, none⟩)
      have made := made.further (List.take_append_drop (count + 1) (first :: rest))
        (.inr ⟨rfl, List.cons_ne_nil first (rest.take count)⟩)
      rw [List.append_assoc] at held follows
      rw [writeAll, if_neg lasting, answer]
      refine ⟨_, made, held, follows, ?_⟩
      rw [List.flatten_cons, parts]
      rfl

/-- Calls behind these exchanges: after each of them the position is right, or it overflows. -/
inductive Counts (plan : SinkPlan) :
    List Exchange → List WriteCall → Except Overflow (List Transfer) → Prop
  | nil (history : List Exchange) : Counts plan history [] (.ok [])
  | counted {history exchanges : List Exchange} {call : WriteCall} {calls : List WriteCall}
      {transfer : Transfer} {result : Except Overflow (List Transfer)}
      (confirms : plan.Confirms history call transfer exchanges)
      (position : transfer.tracker.position.toNat =
        (Exchange.accepted (history ++ exchanges)).length)
      (rest : Counts plan (history ++ exchanges) calls result) :
      Counts plan history (call :: calls) (result.map (transfer :: ·))
  | overflowed {history exchanges : List Exchange} {call : WriteCall} {transfer : Transfer}
      (calls : List WriteCall) (confirms : plan.Confirms history call transfer exchanges)
      (large : UInt64.size ≤ (Exchange.accepted (history ++ exchanges)).length) :
      Counts plan history (call :: calls) (.error .addition)

theorem exists_confirms_perform (held : plan.History history) (follows : tracker.Follows history)
    (call : WriteCall) : ∃ transfer exchanges, plan.Confirms history call transfer exchanges ∧
      plan.perform tracker call =
        if transfer.tracker.taken < UInt64.size then .ok transfer else .error .addition := by
  cases call with
  | once bytes => exact ⟨_, _, confirms_request held follows bytes, rfl⟩
  | whole bytes =>
      obtain ⟨exchanges, confirms⟩ := exists_confirms_writeAll held follows bytes
      exact ⟨_, exchanges, confirms, rfl⟩

theorem counts_of_follows (held : plan.History history) (follows : tracker.Follows history)
    (calls : List WriteCall) : plan.Counts history calls (plan.performAll tracker calls) := by
  induction calls generalizing tracker history with
  | nil => exact .nil history
  | cons call rest rec =>
      obtain ⟨transfer, exchanges, confirms, performed⟩ := exists_confirms_perform held follows call
      rw [performAll, performed]
      split
      · rename_i fits
        have position : transfer.tracker.position.toNat =
            (Exchange.accepted (history ++ exchanges)).length := by
          rw [Tracker.position, UInt64.toNat_ofNat_of_lt' fits, confirms.follows.taken]
        rw [Except.ok_bind]
        exact .counted confirms position (rec confirms.held confirms.follows)
      · rename_i large
        rw [confirms.follows.taken] at large
        exact .overflowed rest confirms (Nat.le_of_not_lt large)

/-- After any calls, failed ones among them, the position is the number of bytes that the sink took. -/
theorem counts_performAll (plan : SinkPlan) (calls : List WriteCall) :
    plan.Counts [] calls (plan.performAll {} calls) :=
  counts_of_follows .nil ⟨rfl, rfl⟩ calls

end SinkPlan

end SortedTable

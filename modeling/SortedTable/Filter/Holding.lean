import SortedTable.Filter.Pool

namespace SortedTable

/-- A question to a filter, which changes nothing. -/
inductive Question where
  | isPresent (hash : Murmur.Words)
  | store (format : FilterFormat)
  | storedSize (format : FilterFormat)
  | byteSize

inductive Answer where
  | present (admitted : Bool)
  | bytes (stored : Bytes)
  | size (bytes : UInt64)
  deriving DecidableEq

/-- The answer of a filter. -/
def Filter.answer (filter : Filter) : Question → Answer
  | .isPresent hash => .present (filter.isPresent hash)
  | .store format => .bytes (filter.store format)
  | .storedSize format => .size (filter.storedSize format)
  | .byteSize => .size filter.byteSize

/-- The region of a handle; an open handle on a Bloom filter has one. -/
def Handle.region? : Handle → Option Nat
  | .alwaysPresent => none
  | .bloom _ _ region => region

/-- The handles that were given out, with the regions behind them. -/
structure Holding where
  pool : Pool
  handles : List (Option Handle)
  deriving Inhabited

namespace Holding

/-- A use of one handle. -/
inductive Use where
  | share
  | add (hash : Murmur.Words)
  | ask (question : Question)
  | clear
  | close
  | drop

/-- What a use gives back: nothing, the place of a further handle, or an answer. -/
inductive Reply where
  | done
  | shared (place : Nat)
  | answered (answer : Answer)
  deriving DecidableEq

inductive Action where
  | adopt (filter : Filter)
  | use (place : Nat) (use : Use)

/-- No handles and no regions. -/
def empty : Holding := ⟨.empty, []⟩

/-- The handle of a place, unless it was dropped or never given out. -/
def handle? (holding : Holding) (place : Nat) : Option Handle := holding.handles[place]?.join

/-- The number of open handles on a region. -/
def openCount (holding : Holding) (region : Nat) : Nat :=
  holding.handles.countP fun held => held.bind Handle.region? == some region

/-- The region of a number, unless it was released or never made. -/
def regionAt (holding : Holding) (region : Nat) : Option Region := holding.pool.region? (some region)

/-- Uses the handle of a place. -/
def useHandle (holding : Holding) (place : Nat) (handle : Handle) :
    Use → Except HandleFault (Reply × Holding)
  | .share => do
      let (copy, pool) ← holding.pool.share handle
      .ok (.shared holding.handles.length, ⟨pool, holding.handles ++ [some copy]⟩)
  | .add hash => do
      let pool ← holding.pool.add handle hash
      .ok (.done, { holding with pool })
  | .ask question => do
      let filter ← holding.pool.filter handle
      .ok (.answered (filter.answer question), holding)
  | .clear => do
      let pool ← holding.pool.clear handle
      .ok (.done, { holding with pool })
  | .close =>
      let (closed, pool) := holding.pool.close handle
      .ok (.done, ⟨pool, holding.handles.set place (some closed)⟩)
  | .drop => .ok (.done, ⟨holding.pool.drop handle, holding.handles.set place none⟩)

/-- Takes an action. A fault changes nothing, and an empty place cannot be used. -/
def perform (holding : Holding) : Action → Option (Except HandleFault Reply) × Holding
  | .adopt filter =>
      let (handle, pool) := holding.pool.adopt filter
      (some (.ok (.shared holding.handles.length)), ⟨pool, holding.handles ++ [some handle]⟩)
  | .use place use =>
      match holding.handle? place with
      | none => (none, holding)
      | some handle =>
          match holding.useHandle place handle use with
          | .ok (reply, after) => (some (.ok reply), after)
          | .error fault => (some (.error fault), holding)

/-- What is held after an action. -/
def after (holding : Holding) (action : Action) : Holding := (holding.perform action).2

/-- What is held after actions in order. -/
def performAll (holding : Holding) (actions : List Action) : Holding := actions.foldl after holding

end Holding

end SortedTable

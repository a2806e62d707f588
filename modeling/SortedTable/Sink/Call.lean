import SortedTable.Overflow
import SortedTable.Sink

namespace SortedTable

inductive WriteCall where
  /-- A single request, which the sink may take in part. -/
  | once (bytes : Bytes)
  /-- Requests until the sink took all bytes. -/
  | whole (bytes : Bytes)
  deriving DecidableEq, Repr

/-- The bytes that a call is to write. -/
def WriteCall.bytes : WriteCall → Bytes
  | .once bytes | .whole bytes => bytes

namespace SinkPlan

/-- Makes a call. It overflows if the count of bytes is no word. -/
def perform (plan : SinkPlan) (tracker : Tracker) (call : WriteCall) : Except Overflow Transfer :=
  let transfer :=
    match call with
    | .once bytes => plan.request tracker bytes
    | .whole bytes => plan.writeAll tracker bytes
  if transfer.tracker.taken < UInt64.size then .ok transfer else .error .addition

/-- Makes calls in order, whether they fail or not, until one overflows. -/
def performAll (plan : SinkPlan) (tracker : Tracker) : List WriteCall → Except Overflow (List Transfer)
  | [] => .ok []
  | call :: rest => do
      let transfer ← plan.perform tracker call
      (plan.performAll transfer.tracker rest).map (transfer :: ·)

end SinkPlan

end SortedTable

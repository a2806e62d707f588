import SortedTable.Component
import SortedTable.Sink

namespace SortedTable

structure Medium where
  create : Component → Option IoError := fun _ => none
  sink : Component → SinkPlan := fun _ => {}
  rename : Component → Option IoError := fun _ => none
  /-- Opening the committed table. -/
  reopen : Component → Option IoError := fun _ => none

namespace Medium

/-- A medium without faults. -/
def sound : Medium := {}

instance : Inhabited Medium := ⟨sound⟩

/-- A medium on which nothing but the creation of the chosen components fails. -/
def refusing (chosen : Component → Bool) (cause : IoError) : Medium where
  create := fun component => if chosen component then some cause else none

/-- A medium on which nothing but the sinks of the chosen components misbehave. -/
def withSink (chosen : Component → Bool) (plan : SinkPlan) : Medium where
  sink := fun component => if chosen component then plan else {}

end Medium

end SortedTable

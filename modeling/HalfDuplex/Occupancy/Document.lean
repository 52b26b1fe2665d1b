import HalfDuplex.Occupancy
import HalfDuplex.Snapshot.Document

/-!
# Traces as documents

The JSON forms of trace lines and of what a watch has seen.  All fields have to be there.

* `TraceEvent.toJson`, `Observed.toJson` and their counterparts `ofJson?` write and read the
  records, `TraceEvent.read?` and `Observed.read?` texts.
-/

namespace HalfDuplex

open Json

namespace Passage

/-- The name of a passage. -/
def name : Passage → String
  | enter => "enter"
  | leave => "exit"

/-- The passage with exactly this name. -/
def ofName? (s : String) : Option Passage :=
  if s = "enter" then some enter else if s = "exit" then some leave else none

/-- The JSON form of a passage. -/
def toJson (p : Passage) : Value := .text p.name

/-- The passage of a JSON value. -/
def ofJson? (v : Value) : Option Passage := v.choice?.bind ofName?

end Passage

namespace TraceEvent

/-- The field names of a trace line in their fixed order. -/
def fieldNames : List String :=
  ["kind", "task", "direction", "priority", "inside", "at_micros"]

/-- The JSON form of a trace line. -/
def toJson (e : TraceEvent) : Value :=
  .record
    [("kind", e.kind.toJson), ("task", .nat e.task), ("direction", e.direction.toJson),
      ("priority", e.priority.toJson), ("inside", .nat e.inside), ("at_micros", .nat e.atMicros)]

/-- The trace line of a JSON value. -/
def ofJson? (v : Value) : Option TraceEvent :=
  match v.fields? fieldNames false with
  | some [kind, task, direction, priority, inside, atMicros] => do
    return {
      kind := ← required Passage.ofJson? kind
      task := ← required count? task
      direction := ← required Direction.ofJson? direction
      priority := ← required Priority.ofJson? priority
      inside := ← required count? inside
      atMicros := ← required count? atMicros }
  | _ => none

/-- The trace line that a text spells. -/
def read? (s : String) : Option TraceEvent := (Value.read? s).bind ofJson?

end TraceEvent

namespace Observed

/-- The field names in their fixed order. -/
def fieldNames : List String :=
  ["peak", "capacity_violations", "direction_violations", "trace"]

/-- The JSON form of what a watch has seen. -/
def toJson (o : Observed) : Value :=
  .record
    [("peak", .nat o.peak), ("capacity_violations", .nat o.capacityViolations),
      ("direction_violations", .nat o.directionViolations),
      ("trace", .list TraceEvent.toJson o.trace)]

/-- What a watch has seen, from a JSON value. -/
def ofJson? (v : Value) : Option Observed :=
  match v.fields? fieldNames false with
  | some [peak, capacityViolations, directionViolations, trace] => do
    return {
      peak := ← required count? peak
      capacityViolations := ← required count? capacityViolations
      directionViolations := ← required count? directionViolations
      trace := ← required (Value.list? TraceEvent.ofJson?) trace }
  | _ => none

/-- What a watch has seen, from a text. -/
def read? (s : String) : Option Observed := (Value.read? s).bind ofJson?

end Observed

end HalfDuplex

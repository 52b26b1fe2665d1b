import HalfDuplex.Cell
import HalfDuplex.Remark

/-!
# Watching a bus from outside

An `Occupancy` is what an observer beside the bus keeps: how many tasks are inside, in which
direction the last one came, and what was seen so far.  It knows nothing of the bus and so can
tell when the bus lets in too many, or both directions at a time.

* `Occupancy.enter`, `Occupancy.leave` : a task comes and goes; both are traced.
* `Occupancy.enterNotes` : what is reported about a task that should not have come in.
-/

namespace HalfDuplex

/-- A task that is seen on the bus. -/
structure Visitor where
  task : Nat
  cell : Cell
  deriving DecidableEq, Repr

/-- Coming or going. -/
inductive Passage where
  | enter
  | leave
  deriving DecidableEq, Repr

/-- One line of a trace. -/
structure TraceEvent where
  kind : Passage
  task : Nat
  direction : Direction
  priority : Priority
  /-- The number of tasks inside right after. -/
  inside : Nat
  /-- The time in microseconds since the watch began. -/
  atMicros : Nat
  deriving DecidableEq, Repr

/-- What was seen over a whole watch. -/
structure Observed where
  /-- The most tasks inside at a time. -/
  peak : Nat := 0
  capacityViolations : Nat := 0
  directionViolations : Nat := 0
  trace : List TraceEvent := []
  deriving DecidableEq, Repr

/-- A watch over a bus. -/
structure Occupancy where
  /-- The number of tasks that may be inside. -/
  capacity : Nat
  /-- The direction of the last task that came in, while somebody is inside. -/
  direction : Option Direction := none
  inside : Nat := 0
  seen : Observed := {}
  deriving DecidableEq, Repr

namespace Occupancy

/-- A watch that has seen nothing yet. -/
def new (capacity : Nat) : Occupancy := { capacity := capacity }

/-- One thing to report. -/
inductive Note where
  | overCapacity (task inside : Nat)
  | mixedDirections (task : Nat) (direction : Direction)
  deriving DecidableEq, Repr

namespace Note

/-- The log line of a note. -/
def remark : Note → Remark
  | overCapacity task inside =>
    ⟨.error, "bus over capacity", [("task", toString task), ("inside", toString inside)]⟩
  | mixedDirections task direction =>
    ⟨.error, "bus shared by both directions",
      [("task", toString task), ("direction", direction.name)]⟩

end Note

variable (o : Occupancy)

/-- There is no room for one more task. -/
def isFull : Bool := o.capacity ≤ o.inside

/-- A task of direction `d` does not fit those inside. -/
def clashes (d : Direction) : Bool := 0 < o.inside && o.direction ≠ some d

/-- The line that is traced about a visitor. -/
def event (kind : Passage) (v : Visitor) (inside atMicros : Nat) : TraceEvent where
  kind := kind
  task := v.task
  direction := v.cell.direction
  priority := v.cell.priority
  inside := inside
  atMicros := atMicros

/-- A task comes in. -/
def enter (v : Visitor) (atMicros : Nat) : Occupancy :=
  { o with
    direction := some v.cell.direction
    inside := o.inside + 1
    seen :=
      { peak := max o.seen.peak (o.inside + 1)
        capacityViolations := o.seen.capacityViolations + if o.isFull then 1 else 0
        directionViolations :=
          o.seen.directionViolations + if o.clashes v.cell.direction then 1 else 0
        trace := o.seen.trace ++ [event .enter v (o.inside + 1) atMicros] } }

/-- A task goes. -/
def leave (v : Visitor) (atMicros : Nat) : Occupancy :=
  { o with
    direction := if o.inside - 1 = 0 then none else o.direction
    inside := o.inside - 1
    seen := { o.seen with trace := o.seen.trace ++ [event .leave v (o.inside - 1) atMicros] } }

/-- What is reported when a task comes in. -/
def enterNotes (v : Visitor) : List Note :=
  (if o.isFull then [.overCapacity v.task o.inside] else [])
    ++ (if o.clashes v.cell.direction then [.mixedDirections v.task v.cell.direction] else [])

/-- One event of a watch: a task passes at a time. -/
def pass (kind : Passage) (v : Visitor) (atMicros : Nat) : Occupancy :=
  match kind with
  | .enter => o.enter v atMicros
  | .leave => o.leave v atMicros

end Occupancy

end HalfDuplex

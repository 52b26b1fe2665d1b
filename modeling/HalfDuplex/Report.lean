import HalfDuplex.Occupancy
import HalfDuplex.Snapshot
import HalfDuplex.Span

/-!
# Reports

What is known of a batch after it ran: from the tasks, from the watch outside the bus, and from
the bus itself.  Reports also arrive in documents, so their parts need not fit together.

* `Report.isClean` : the watch saw nothing wrong, every task came in, and the bus is idle again.
* `Report.summary` : the lines for a reader.
-/

namespace HalfDuplex

/-- What is known of a batch after it ran. -/
structure Report where
  /-- The number of tasks. -/
  tasks : Nat
  /-- The tasks in the order in which they came in. -/
  admissionOrder : List Nat
  /-- For each task whether it had to wait. -/
  waited : List Bool
  /-- The most tasks that the watch saw inside. -/
  peakConcurrency : Nat
  capacityViolations : Nat
  directionViolations : Nat
  /-- How long the batch took. -/
  elapsed : Span
  trace : List TraceEvent
  /-- The bus after the batch. -/
  bus : Snapshot
  deriving DecidableEq, Repr

namespace Report

variable (r : Report)

/-- Everything that the watch saw go wrong. -/
def violations : Except Overflow Nat := Word.sum [r.capacityViolations, r.directionViolations]

/-- Nothing went wrong, and nothing is left over.  The bus is asked last, and only if the rest is
well. -/
def isClean : Except Overflow Bool := do
  let violations ← r.violations
  if violations = 0 ∧ r.admissionOrder.length = r.tasks then r.bus.isIdle else return false

/-- A list of numbers in brackets. -/
def bracketed (xs : List Nat) : String :=
  "[" ++ String.intercalate ", " (xs.map toString) ++ "]"

/-- The report in lines for a reader. -/
def summary : List String :=
  let s := r.bus.stats
  [s!"tasks:              {r.tasks}",
    s!"elapsed:            {r.elapsed.text}",
    s!"peak concurrency:   {r.peakConcurrency}",
    s!"admitted:           {s.admissions} ({s.immediate} immediately, {s.queued} after waiting)",
    s!"by class:           outbound {s.outbound} / inbound {s.inbound}, "
      ++ s!"elevated {s.elevated} / normal {s.normal}",
    s!"cycles:             {s.cycles} ({s.switches} direction switches)",
    s!"violations:         {r.capacityViolations} capacity, "
      ++ s!"{r.directionViolations} direction",
    s!"admission order:    {bracketed r.admissionOrder}"]

end Report

end HalfDuplex

import HalfDuplex.Batch
import HalfDuplex.Transfer

/-!
# Batches in time

Here a batch runs by a clock.  Every step but a transfer takes no time; of the tasks that have a
step to make the one that can make it first goes first, and of several the one with the lowest
number.

* `Clock.next?` picks the next step, and `Clock.run` makes a number of them.  A task makes five
  steps, so five times as many steps as tasks bring the batch to its end.
* `Workload.simulate` runs a whole workload and reports.
-/

namespace HalfDuplex

/-- A batch and the time. -/
structure Clock where
  batch : Batch
  /-- Nanoseconds since the beginning. -/
  now : Nat := 0
  /-- For each task the moment before which it makes no step. -/
  due : List Nat
  deriving Repr

namespace Clock

/-- A batch at the beginning of time. -/
def start (b : Batch) : Clock := { batch := b, due := b.members.map fun _ => 0 }

/-- A moment in microseconds, as a machine word. -/
def micros (moment : Nat) : Nat := min (moment / 1000) Word.max64

/-- The moment of the next step of task `i`, if it has one to make. -/
def moment? (k : Clock) (i : Nat) : Option Nat :=
  if (k.batch.step? i 0).isSome then some (max k.now (k.due.getD i 0)) else none

/-- The earlier of two steps; the first if they come together. -/
def earlier (best : Option (Nat × Nat)) (i moment : Nat) : Option (Nat × Nat) :=
  match best with
  | some (j, first) => if moment < first then some (i, moment) else some (j, first)
  | none => some (i, moment)

/-- The task that makes the next step, and when. -/
def next? (k : Clock) : Option (Nat × Nat) :=
  (List.range k.batch.members.length).foldl
    (fun best i =>
      match k.moment? i with
      | some moment => earlier best i moment
      | none => best)
    none

/-- When a member makes its next step after a step at `moment`: at once, or at the end of its
transfer. -/
def dueAfter (transfer : Transfer) (moment : Nat) (m : Member) : Nat :=
  match m.phase with
  | .inside _ _ => moment + (transfer m.task.id).nanos
  | _ => moment

/-- The clock after task `i` made a step at `moment` that led to the batch `b`. -/
def after (transfer : Transfer) (k : Clock) (b : Batch) (i moment : Nat) : Clock where
  batch := b
  now := moment
  due :=
    match b.members[i]? with
    | some m => k.due.set i (dueAfter transfer moment m)
    | none => k.due

/-- Makes up to a number of steps. -/
def run (transfer : Transfer) : Nat → Clock → Clock
  | 0, k => k
  | steps + 1, k =>
    match k.next? with
    | none => k
    | some (i, moment) =>
      match k.batch.step? i (micros moment) with
      | none => k
      | some b => run transfer steps (k.after transfer b i moment)

/-- How long the batch has run. -/
def elapsed (k : Clock) : Span := ⟨min k.now Span.longest.nanos⟩

end Clock

namespace Workload

/-- Runs all tasks of a workload to their end. -/
def simulate (w : Workload) (transfer : Transfer) : Except RunFault Report :=
  match Batch.start w with
  | .error fault => .error fault
  | .ok b =>
    let k := (Clock.start b).run transfer (5 * b.members.length)
    match k.batch.members.findSome? Batch.fault? with
    | some fault => .error (.bus fault)
    | none => .ok (k.batch.report k.elapsed)

end Workload

end HalfDuplex

import HalfDuplex.Bus.Operations
import HalfDuplex.Report
import HalfDuplex.Workload.Fault

/-!
# Batches

A `Batch` is a workload at work: every task asks for a slot, comes onto the bus, goes and gives
its slot back, one step at a time, and in between any other task may have its turn.

* `Batch.plan` : the tasks that are to run, if there can be a list of them and of their times.
* `Batch.start` : all tasks are ready, the bus is empty.
* `Batch.step?` : one step of one task.  Only a queued task without a grant, or one that is done,
  has no step to make.
* `Batch.report` : what is known in the end.

A task comes in after it was admitted and goes before it gives its slot back, so the watch never
sees more tasks inside than the bus has admitted.
-/

namespace HalfDuplex

/-- How far a task has come. -/
inductive Phase where
  /-- It has not asked yet. -/
  | ready
  /-- Its ticket waits or was granted a slot. -/
  | queued (ticket : Ticket)
  /-- It has a slot and is not on the bus yet. -/
  | admitted (ticket : Ticket) (waited : Bool)
  /-- It is on the bus. -/
  | inside (ticket : Ticket) (waited : Bool)
  /-- It has left the bus and still has its slot. -/
  | leaving (ticket : Ticket) (waited : Bool)
  /-- It has given its slot back. -/
  | done (waited : Bool)
  /-- The bus refused something. -/
  | failed (fault : Fault)
  deriving DecidableEq, Repr

/-- A task and how far it has come. -/
structure Member where
  task : Task
  phase : Phase := .ready
  deriving DecidableEq, Repr

namespace Member

/-- The task as the watch sees it. -/
def visitor (m : Member) : Visitor := ⟨m.task.id, m.task.cell⟩

end Member

/-- A workload at work. -/
structure Batch where
  bus : Bus
  watch : Occupancy
  members : List Member
  deriving DecidableEq, Repr

namespace Batch

/-- How many bytes a task takes together with the time of its transfer. -/
def plannedBytes : Nat := Task.bytes + Span.bytes

/-- The tasks of a workload that is about to run.  All transfer times are drawn before the first
task begins, so a second list, of the tasks with their times, needs room as well. -/
def plan (w : Workload) : Except Overflow (List Task) := do
  let tasks ← w.tasks
  Word.room plannedBytes tasks.length
  return tasks

/-- A batch that is about to begin. -/
def start (w : Workload) : Except RunFault Batch :=
  match Bus.build w.config with
  | .error fault => .error (.bus fault)
  | .ok bus =>
    match plan w with
    | .error overflow => .error (.tooManyTasks overflow)
    | .ok tasks =>
      .ok
        { bus := bus
          watch := .new w.capacity
          members := tasks.map fun t => { task := t } }

/-- The batch after member `i` came to another phase. -/
def advance (b : Batch) (i : Nat) (m : Member) (phase : Phase) : Batch :=
  { b with members := b.members.set i { m with phase := phase } }

/-- One step of member `i`, at a time in microseconds since the beginning. -/
def step? (b : Batch) (i atMicros : Nat) : Option Batch :=
  match b.members[i]? with
  | none => none
  | some m =>
    match m.phase with
    | .ready =>
      match b.bus.request m.task.cell with
      | (.admitted t, bus) => some ({ b with bus := bus }.advance i m (.admitted t false))
      | (.queued t, bus) => some ({ b with bus := bus }.advance i m (.queued t))
    | .queued t =>
      match b.bus.takeGrant t with
      | (true, bus) => some ({ b with bus := bus }.advance i m (.admitted t true))
      | (false, _) => none
    | .admitted t waited =>
      some ({ b with watch := b.watch.enter m.visitor atMicros }.advance i m (.inside t waited))
    | .inside t waited =>
      some ({ b with watch := b.watch.leave m.visitor atMicros }.advance i m (.leaving t waited))
    | .leaving t waited =>
      match b.bus.releaseTicket t with
      | (.ok _, bus) => some ({ b with bus := bus }.advance i m (.done waited))
      | (.error fault, bus) => some ({ b with bus := bus }.advance i m (.failed fault))
    | .done _ => none
    | .failed _ => none

/-- Whether a member that is done had to wait. -/
def waited? (m : Member) : Option Bool :=
  match m.phase with
  | .done waited => some waited
  | _ => none

/-- What the bus refused to a member. -/
def fault? (m : Member) : Option Fault :=
  match m.phase with
  | .failed fault => some fault
  | _ => none

/-- What is known of the batch after it took the time `elapsed`. -/
def report (b : Batch) (elapsed : Span) : Report where
  tasks := b.members.length
  admissionOrder :=
    (b.watch.seen.trace.filter fun e => e.kind = .enter).map TraceEvent.task
  waited := b.members.filterMap waited?
  peakConcurrency := b.watch.seen.peak
  capacityViolations := b.watch.seen.capacityViolations
  directionViolations := b.watch.seen.directionViolations
  elapsed := elapsed
  trace := b.watch.seen.trace
  bus := b.bus.snapshot

end Batch

end HalfDuplex

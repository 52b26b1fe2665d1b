import HalfDuplex.Cell
import HalfDuplex.Config

/-!
# Workloads

A `Workload` says how many tasks of each cell share a bus, how long their transfers take and
under which settings the bus runs.

* `Workload.config` : the settings of the bus.  The capacity of the workload always counts, never
  one that stands in the settings inside it.
* `Workload.taskList` : the tasks, numbered from zero, one batch for each cell.
* `Workload.tasks` : the same list, if it may have so many entries.  The room for all of them is
  asked for before the first one is made.
-/

namespace HalfDuplex

/-- One batch of tasks that share a bus. -/
structure Workload where
  capacity : Nat := 3
  outboundNormal : Nat := 0
  inboundNormal : Nat := 0
  outboundElevated : Nat := 0
  inboundElevated : Nat := 0
  /-- Where the transfer times are drawn from. -/
  seed : Nat := 123456789
  /-- Transfers last fewer ticks than this. -/
  maxTicks : Nat := 10
  /-- The length of a tick. -/
  tickMicros : Nat := 1000
  /-- The settings of the bus, but for its capacity. -/
  bus : Option Config := none
  deriving DecidableEq, Repr

/-- One task of a batch. -/
structure Task where
  /-- The place of the task in its batch. -/
  id : Nat
  cell : Cell
  deriving DecidableEq, Repr

namespace Task

/-- How many bytes a task takes: its number, the name of its class and its cell. -/
def bytes : Nat := 32

/-- The name of the tasks of a cell. -/
def className : Cell → String
  | ⟨.outbound, .normal⟩ => "sender_task"
  | ⟨.inbound, .normal⟩ => "receiver_task"
  | ⟨.outbound, .elevated⟩ => "prio_sender_task"
  | ⟨.inbound, .elevated⟩ => "prio_receiver_task"

/-- The name that a task shares with the others of its cell. -/
def name (t : Task) : String := className t.cell

/-- The name of a task, its own within a batch. -/
def threadName (t : Task) : String := s!"{t.name}-{t.id}"

end Task

namespace Workload

/-- The workload used when nothing else is said. -/
def standard : Workload := {}

variable (w : Workload)

/-- The settings under which the bus of this workload runs. -/
def config : Config := { w.bus.getD .standard with capacity := w.capacity }

/-- The cells in the order of their batches, with the number of tasks in each. -/
def batches : List (Cell × Nat) :=
  [(⟨.outbound, .normal⟩, w.outboundNormal), (⟨.inbound, .normal⟩, w.inboundNormal),
    (⟨.outbound, .elevated⟩, w.outboundElevated), (⟨.inbound, .elevated⟩, w.inboundElevated)]

/-- The number of tasks, if it is a machine word. -/
def taskCount : Except Overflow Nat := Word.sum (w.batches.map Prod.snd)

/-- Puts the tasks of the batches behind `next` tasks. -/
def tasksFrom (next : Nat) : List (Cell × Nat) → List Task
  | [] => []
  | (c, n) :: rest =>
    (List.range' next n).map (fun id => ⟨id, c⟩) ++ tasksFrom (next + n) rest

/-- All tasks, batch after batch. -/
def taskList : List Task := tasksFrom 0 w.batches

/-- The tasks, if they can be counted and a list may have so many of them. -/
def tasks : Except Overflow (List Task) := do
  let n ← w.taskCount
  Word.room Task.bytes n
  return w.taskList

end Workload

end HalfDuplex

import HalfDuplex.Bus.Operations

/-!
# Runs of a bus

The operations as data, so that whole runs can be spoken of.

* `Bus.step` performs one operation, `Bus.run` a list of them.
* `Bus.Reachable` holds of the buses that some run leads to from an empty bus with at least one
  slot.
-/

namespace HalfDuplex

/-- One operation on a bus. -/
inductive Op where
  | request (cell : Cell)
  | tryRequest (cell : Cell)
  | takeGrant (ticket : Ticket)
  | release (cell : Cell)
  | releaseTicket (ticket : Ticket)
  | withdraw (ticket : Ticket)
  deriving DecidableEq, Repr

/-- The answer to an operation. -/
inductive Answer where
  | request (answer : Request)
  | tryRequest (answer : Option Ticket)
  | takeGrant (answer : Bool)
  /-- A slot was given back. -/
  | released (woken : List Ticket)
  /-- There was no such slot. -/
  | refused (fault : Fault)
  | withdraw (answer : Withdrawal)
  deriving DecidableEq, Repr

namespace Answer

/-- The answer to a release. -/
def ofRelease : Except Fault (List Ticket) → Answer
  | .ok woken => released woken
  | .error fault => refused fault

/-- The tickets that went from a queue to a slot. -/
def woken : Answer → List Ticket
  | released ts => ts
  | withdraw (.removed ts) => ts
  | _ => []

end Answer

namespace Bus

/-- Performs one operation. -/
def step (b : Bus) : Op → Answer × Bus
  | .request c => let (a, b) := b.request c; (.request a, b)
  | .tryRequest c => let (a, b) := b.tryRequest c; (.tryRequest a, b)
  | .takeGrant t => let (a, b) := b.takeGrant t; (.takeGrant a, b)
  | .release c => let (a, b) := b.release c; (.ofRelease a, b)
  | .releaseTicket t => let (a, b) := b.releaseTicket t; (.ofRelease a, b)
  | .withdraw t => let (a, b) := b.withdraw t; (.withdraw a, b)

/-- Performs the operations of a list in turn. -/
def run (b : Bus) : List Op → List Answer × Bus
  | [] => ([], b)
  | op :: ops =>
    let (answer, b) := b.step op
    let (answers, b) := b.run ops
    (answer :: answers, b)

/-- Some run from the empty bus with the same settings leads to `b`. -/
def Reachable (b : Bus) : Prop :=
  b.config.valid ∧ ∃ ops, ((Bus.new b.config).run ops).2 = b

end Bus

end HalfDuplex

import HalfDuplex.Bus.Basic

/-!
# Who may go next

Two decisions are made on a bus, both from its state alone.

* `Bus.accepts` : may an arriving request take a slot at once?  The empty bus takes anybody.  The
  running bus takes its own direction only, while it has room, and never past a waiter that
  would be served first.
* `Bus.nextTurn` : which direction does the emptied bus serve, and why?  A direction without
  rivals is taken.  Between rivals the one side with elevated waiters is preferred, until it has
  used up its streak; without a preferred side the fairness rule decides.
-/

namespace HalfDuplex

/-- Why a direction was chosen. -/
inductive Reason where
  /-- Only this direction had waiters. -/
  | onlyWaiting
  /-- This direction had elevated waiters and the other had none. -/
  | elevated
  /-- It was not served last. -/
  | alternation
  /-- It had the oldest waiter. -/
  | oldestFirst
  /-- The other direction was preferred and had used up its streak. -/
  | streakLimit
  deriving DecidableEq, Repr

namespace Reason

/-- The name of a reason. -/
def name : Reason → String
  | onlyWaiting => "only-waiting"
  | elevated => "elevated"
  | alternation => "alternation"
  | oldestFirst => "oldest-first"
  | streakLimit => "streak-limit"

end Reason

namespace Bus

variable (b : Bus)

/-- Direction `d` is held back because the bus yields to waiters of the other side. -/
def yields (d : Direction) : Bool := b.config.yieldToOpposite && b.hasWaiters d.opposite

/-- A request of cell `c` may take a slot on arrival. -/
def accepts (c : Cell) : Bool :=
  b.active = 0 ||
    (b.current = some c.direction && b.active < b.config.capacity
      && !b.hasWaitersIn c
      && !(c.priority = .normal && b.hasWaitersIn ⟨c.direction, .elevated⟩)
      && !b.yields c.direction)

/-- The one direction with elevated waiters, if there is exactly one. -/
def preferred? : Option Direction :=
  match b.hasWaitersIn ⟨.outbound, .elevated⟩, b.hasWaitersIn ⟨.inbound, .elevated⟩ with
  | true, false => some .outbound
  | false, true => some .inbound
  | _, _ => none

/-- Direction `d` has won as often in a row as the settings allow. -/
def exhausted (d : Direction) : Bool :=
  b.lastServed = some d && b.config.streakLimit ≤ b.streak

/-- The smaller of the tickets at the heads of the two queues of direction `d`. -/
def oldestWaiter? (d : Direction) : Option Ticket :=
  match (b.waiting.get ⟨d, .elevated⟩).head?, (b.waiting.get ⟨d, .normal⟩).head? with
  | some t, some u => some (min t u)
  | some t, none => some t
  | none, u => u

/-- The direction of the oldest waiter; the outbound one if nobody waits. -/
def oldestSide : Direction :=
  match b.oldestWaiter? .outbound, b.oldestWaiter? .inbound with
  | some o, some i => if i < o then .inbound else .outbound
  | none, some _ => .inbound
  | _, none => .outbound

/-- The choice between two directions that both have waiters. -/
def contested : Direction × Reason :=
  match b.preferred? with
  | some d => if b.exhausted d then (d.opposite, .streakLimit) else (d, .elevated)
  | none =>
    match b.config.fairness, b.lastServed with
    | .alternate, some d => (d.opposite, .alternation)
    | _, _ => (b.oldestSide, .oldestFirst)

/-- The direction that the emptied bus serves, unless nobody waits. -/
def nextTurn : Option (Direction × Reason) :=
  match b.hasWaiters .outbound, b.hasWaiters .inbound with
  | false, false => none
  | true, false => some (.outbound, .onlyWaiting)
  | false, true => some (.inbound, .onlyWaiting)
  | true, true => some b.contested

end Bus

end HalfDuplex

import HalfDuplex.Cell
import HalfDuplex.Span

/-!
# Faults

What can go wrong in talking to a bus.  `invalidCapacity`, `unmatchedRelease` and `staleTicket`
are mistakes of the caller; `wouldBlock` and `timedOut` come from the calls that do not wait for
ever; `poisoned` means that a caller broke off inside the gate.

* `Fault.message` is the wording and `Fault.code` the negative number used on handles.
-/

namespace HalfDuplex

/-- Why a call on a bus fails. -/
inductive Fault where
  /-- A bus needs at least one slot. -/
  | invalidCapacity (capacity : Nat)
  /-- No caller of this cell holds a slot. -/
  | unmatchedRelease (cell : Cell)
  /-- The ticket holds no slot. -/
  | staleTicket (ticket : Ticket)
  /-- The request cannot be served without waiting. -/
  | wouldBlock (cell : Cell)
  /-- The request was withdrawn after some time of waiting. -/
  | timedOut (cell : Cell) (waited : Span)
  /-- The gate is unusable. -/
  | poisoned
  deriving DecidableEq, Repr

namespace Fault

/-- The wording of a fault. -/
def message : Fault → String
  | invalidCapacity capacity =>
    s!"invalid bus capacity {capacity}: at least one slot is required"
  | unmatchedRelease cell => s!"release of {cell.name} slot that is not held"
  | staleTicket ticket => s!"release of ticket #{ticket} that holds no slot"
  | wouldBlock cell => s!"{cell.name} request is not immediately admissible"
  | timedOut cell waited => s!"{cell.name} request timed out after {waited.text}"
  | poisoned => "bus arbiter mutex poisoned"

/-- The number of a fault.  The numbers -1, -2, -8, -9 and -11 are left to the handle's own
checks. -/
def code : Fault → Int
  | invalidCapacity _ => -3
  | unmatchedRelease _ => -4
  | wouldBlock _ => -5
  | timedOut _ _ => -6
  | poisoned => -7
  | staleTicket _ => -10

end Fault

end HalfDuplex

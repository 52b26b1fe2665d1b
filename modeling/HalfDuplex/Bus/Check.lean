import HalfDuplex.Bus.Basic

/-!
# The bus checks itself

`Bus.check` looks for the first thing on a bus that does not fit together and names it.  It can be
asked of any bus state, also of one that no run leads to; only the sum of the held counts may
leave the range of a machine word then.

* `Flaw.message` is the wording of what was found.
-/

namespace HalfDuplex

/-- Something that does not fit together on a bus. -/
inductive Flaw where
  /-- More slots are held than there are. -/
  | overCapacity (active capacity : Nat)
  /-- The held counts do not add up to the number of held slots. -/
  | heldMismatch (total active : Nat)
  /-- The holders of a cell are not as many as its held count. -/
  | holdersMismatch (cell : Cell) (holders held : Nat)
  /-- Slots are held and the bus runs in no direction. -/
  | noDirection (active : Nat)
  /-- No slot is held and the bus runs. -/
  | idleDirection (direction : Direction)
  /-- Slots are held against the direction of the bus. -/
  | mixedDirections (others : Nat) (direction : Direction)
  /-- Somebody waits and no slot is held. -/
  | stranded (waiters : Nat)
  /-- A ticket waits and has a grant. -/
  | queuedAndGranted (ticket : Ticket)
  /-- A queue is not in arrival order. -/
  | unordered
  deriving DecidableEq, Repr

namespace Flaw

/-- The wording of a flaw. -/
def message : Flaw → String
  | overCapacity active capacity => s!"active_count {active} exceeds capacity {capacity}"
  | heldMismatch total active => s!"held slots {total} disagree with active_count {active}"
  | holdersMismatch cell holders held =>
    s!"{holders} {cell.name} tickets hold slots but the cell counts {held}"
  | noDirection active => s!"{active} active slots without a direction"
  | idleDirection direction => s!"idle bus still claims direction {direction.name}"
  | mixedDirections others direction =>
    s!"{others} {direction.opposite.name} slots held while bus runs {direction.name}"
  | stranded waiters => s!"{waiters} waiters stranded on an idle bus"
  | queuedAndGranted ticket => s!"ticket #{ticket} is both queued and granted"
  | unordered => "queue is not in arrival order"

end Flaw

namespace Bus

/-- Each ticket is smaller than its successor. -/
def inOrder : List Ticket → Bool
  | t :: u :: rest => t < u && inOrder (u :: rest)
  | _ => true

variable (b : Bus)

/-- A cell whose holders are not as many as its held count. -/
def holderFlaw? (c : Cell) : Option Flaw :=
  let holders := (b.holdersIn c).length
  if holders = b.held.get c then none else some (.holdersMismatch c holders (b.held.get c))

/-- A direction of the bus that does not fit the held slots. -/
def directionFlaw? : Option Flaw :=
  match b.current with
  | none => if b.active = 0 then none else some (.noDirection b.active)
  | some d =>
    if b.active = 0 then some (.idleDirection d)
    else
      let others :=
        b.held.get ⟨d.opposite, .elevated⟩ + b.held.get ⟨d.opposite, .normal⟩
      if others = 0 then none else some (.mixedDirections others d)

/-- Waiters on a bus without held slots. -/
def strandedFlaw? : Option Flaw :=
  if b.active = 0 ∧ b.totalWaiting ≠ 0 then some (.stranded b.totalWaiting) else none

/-- Something wrong with the queue of a cell. -/
def queueFlaw? (c : Cell) : Option Flaw :=
  match (b.waiting.get c).find? fun t => t ∈ b.granted with
  | some t => some (.queuedAndGranted t)
  | none => if inOrder (b.waiting.get c) then none else some .unordered

/-- The first flaw of a bus, if it has one. -/
def check : Except Overflow (Option Flaw) :=
  if b.config.capacity < b.active then
    .ok (some (.overCapacity b.active b.config.capacity))
  else
    b.held.total.map fun total =>
      if total ≠ b.active then some (.heldMismatch total b.active)
      else
        (Cell.all.findSome? b.holderFlaw?).or <| b.directionFlaw?.or <| b.strandedFlaw?.or <|
          Cell.all.findSome? b.queueFlaw?

end Bus

end HalfDuplex

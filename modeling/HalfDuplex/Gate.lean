import HalfDuplex.Bus.Check
import HalfDuplex.Bus.Operations

/-!
# The gate in front of a bus

Callers that have to wait sleep at the gate.  A `Gate` is a bus together with the tickets whose
callers sleep there; a caller works on it alone, and between two such stretches any other caller
may have its turn.  Each function below is one stretch:

* `Gate.arrive`, `Gate.tryArrive` : a caller asks for a slot; it gets one, goes to sleep, or goes
  away.
* `Gate.resume` : a sleeping caller wakes, for whatever reason, and looks for its grant.
* `Gate.expire` : a sleeping caller runs out of patience.  A grant that came first still counts.
* `Gate.release`, `Gate.releaseTicket` : a caller gives a slot back.  Exactly the callers that got a
  slot by it are called.
* `Gate.abandon` : a caller that breaks off hands everything back.

A gate is poisoned when a caller breaks off in the middle of a stretch.  From then on every call
fails, and a sleeping caller that wakes abandons its request.
-/

namespace HalfDuplex

/-- A granted slot. -/
structure Admission where
  ticket : Ticket
  cell : Cell
  /-- The request was queued before it was admitted. -/
  waited : Bool
  deriving DecidableEq, Repr

/-- What becomes of a caller that may wait. -/
inductive Arrival where
  /-- It holds a slot. -/
  | admitted (admission : Admission)
  /-- It sleeps. -/
  | parked (ticket : Ticket)
  deriving DecidableEq, Repr

/-- A bus and the callers that sleep in front of it. -/
structure Gate where
  bus : Bus
  /-- The tickets whose callers sleep. -/
  parked : List Ticket := []
  /-- Those of them whose callers were called and have not looked yet. -/
  called : List Ticket := []
  /-- A caller broke off in the middle of a stretch. -/
  poisoned : Bool := false
  deriving DecidableEq, Repr

/-- Why a gate cannot be taken down. -/
inductive CloseFault where
  | inUse
  deriving DecidableEq, Repr

namespace CloseFault

/-- The wording of the fault. -/
def message : CloseFault → String
  | inUse => "bus arbiter dropped while in use"

end CloseFault

namespace Gate

/-- A gate in front of an empty bus. -/
def build (config : Config) : Except Fault Gate :=
  (Bus.build config).map fun bus => { bus := bus }

/-- The gate with another bus behind it. -/
def withBus (g : Gate) (bus : Bus) : Gate := { g with bus := bus }

/-- The caller of ticket `t` goes to sleep. -/
def park (g : Gate) (t : Ticket) : Gate := { g with parked := t :: g.parked }

/-- The caller of ticket `t` does not sleep any more. -/
def unpark (g : Gate) (t : Ticket) : Gate :=
  { g with
    parked := g.parked.filter (· ≠ t)
    called := g.called.filter (· ≠ t) }

/-- The sleeping callers among those of the tickets `woken` are called. -/
def call (g : Gate) (woken : List Ticket) : Gate :=
  { g with called := g.called ++ woken.filter (· ∈ g.parked) }

/-- The caller of ticket `t` breaks off.  A slot it was granted meanwhile goes back. -/
def abandon (g : Gate) (t : Ticket) : Gate :=
  let g := g.unpark t
  match g.bus.withdraw t with
  | (.removed woken, bus) => (g.withBus bus).call woken
  | (.alreadyAdmitted, bus) =>
    match (bus.takeGrant t).2.releaseTicket t with
    | (.ok woken, bus) => (g.withBus bus).call woken
    | (.error _, bus) => g.withBus bus
  | (.unknown, bus) => g.withBus bus

/-- A caller asks for a slot of cell `c` and sleeps if there is none. -/
def arrive (g : Gate) (c : Cell) : Except Fault Arrival × Gate :=
  if g.poisoned then (.error .poisoned, g)
  else
    match g.bus.request c with
    | (.admitted t, bus) => (.ok (.admitted ⟨t, c, false⟩), g.withBus bus)
    | (.queued t, bus) => (.ok (.parked t), (g.withBus bus).park t)

/-- A caller asks for a slot of cell `c` and goes away if there is none. -/
def tryArrive (g : Gate) (c : Cell) : Except Fault Admission × Gate :=
  if g.poisoned then (.error .poisoned, g)
  else
    match g.bus.tryRequest c with
    | (some t, bus) => (.ok ⟨t, c, false⟩, g.withBus bus)
    | (none, bus) => (.error (.wouldBlock c), g.withBus bus)

/-- The sleeping caller of ticket `t`, which asked for cell `c`, wakes.  Without a grant it goes
back to sleep. -/
def resume (g : Gate) (t : Ticket) (c : Cell) : Except Fault (Option Admission) × Gate :=
  if g.poisoned then (.error .poisoned, g.abandon t)
  else
    match g.bus.takeGrant t with
    | (true, bus) => (.ok (some ⟨t, c, true⟩), (g.withBus bus).unpark t)
    | (false, _) => (.ok none, { g with called := g.called.filter (· ≠ t) })

/-- The sleeping caller of ticket `t`, which asked for cell `c`, has waited long enough. -/
def expire (g : Gate) (t : Ticket) (c : Cell) (waited : Span) : Except Fault Admission × Gate :=
  if g.poisoned then (.error .poisoned, g.abandon t)
  else
    match g.bus.takeGrant t with
    | (true, bus) => (.ok ⟨t, c, true⟩, (g.withBus bus).unpark t)
    | (false, _) =>
      let g := g.unpark t
      match g.bus.withdraw t with
      | (.removed woken, bus) => (.error (.timedOut c waited), (g.withBus bus).call woken)
      | (_, bus) => (.ok ⟨t, c, true⟩, g.withBus (bus.takeGrant t).2)

/-- What a release on the bus means for the gate. -/
def settle (g : Gate) : Except Fault (List Ticket) × Bus → Except Fault Unit × Gate
  | (.ok woken, bus) => (.ok (), (g.withBus bus).call woken)
  | (.error fault, bus) => (.error fault, g.withBus bus)

/-- A caller gives back a slot of cell `c`. -/
def release (g : Gate) (c : Cell) : Except Fault Unit × Gate :=
  if g.poisoned then (.error .poisoned, g) else g.settle (g.bus.release c)

/-- A caller gives back the slot of ticket `t`. -/
def releaseTicket (g : Gate) (t : Ticket) : Except Fault Unit × Gate :=
  if g.poisoned then (.error .poisoned, g) else g.settle (g.bus.releaseTicket t)

/-- A caller breaks off in the middle of a stretch. -/
def poison (g : Gate) : Gate := { g with poisoned := true }

/-- What `f` sees of the bus, unless the gate is poisoned. -/
def look {α : Type} (g : Gate) (f : Bus → α) : Except Fault α :=
  if g.poisoned then .error .poisoned else .ok (f g.bus)

/-- Takes the gate down.  This is a mistake while the bus is in use; of a poisoned gate nobody
can tell. -/
def close (g : Gate) : Except CloseFault Unit :=
  if g.poisoned || g.bus.isIdle then .ok () else .error .inUse

end Gate

end HalfDuplex

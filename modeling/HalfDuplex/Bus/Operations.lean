import HalfDuplex.Bus.Choice
import HalfDuplex.Fault

/-!
# The operations of a bus

Every operation is one complete decision: it answers and leaves a bus on which nobody waits who
could go.

* `Bus.build` : an empty bus, which needs at least one slot.
* `Bus.request`, `Bus.tryRequest` : a request arrives.  It takes a slot or is queued; the second
  form leaves no trace if it would have to queue.
* `Bus.takeGrant` : a caller picks up the slot that its queued ticket was granted.
* `Bus.release`, `Bus.releaseTicket` : a slot is given back, by cell or by ticket.  A release
  without such a slot is refused and only counted.
* `Bus.withdraw` : a ticket leaves its queue.

The last three answer with the tickets that went from a queue to a slot because of them, in the
order of admission.  `Bus.dispatch` finds these: it tops up the running direction, or hands the
emptied bus to the direction that `Bus.nextTurn` chooses.
-/

namespace HalfDuplex

/-- The answer to a request. -/
inductive Request where
  /-- The ticket holds a slot. -/
  | admitted (ticket : Ticket)
  /-- The ticket waits. -/
  | queued (ticket : Ticket)
  deriving DecidableEq, Repr

namespace Request

/-- The number of the request. -/
def ticket : Request → Ticket
  | admitted t => t
  | queued t => t

end Request

/-- The answer to a withdrawal. -/
inductive Withdrawal where
  /-- The ticket left its queue, and these others were admitted because of it. -/
  | removed (woken : List Ticket)
  /-- The ticket was granted a slot before. -/
  | alreadyAdmitted
  /-- The ticket neither waits nor has a grant to pick up. -/
  | unknown
  deriving DecidableEq, Repr

namespace Bus

/-- The empty bus with these settings, if they are valid. -/
def build (config : Config) : Except Fault Bus :=
  if config.valid then .ok (.new config) else .error (.invalidCapacity config.capacity)

/-! ### Steps of an admission -/

/-- The bus with its next ticket number used up. -/
def issued (b : Bus) : Bus := { b with nextTicket := b.nextTicket + 1 }

/-- The empty bus begins to run in direction `d`.  Only the reason `elevated` feeds the streak;
any other beginning, an arrival included, ends it. -/
def beginCycle (b : Bus) (d : Direction) (why : Option Reason) : Bus :=
  { b with
    streak :=
      if why = some .elevated then (if b.lastServed = some d then b.streak + 1 else 1) else 0
    lastServed := some d
    stats := { b.stats with
      cycles := b.stats.cycles + 1
      switches := b.stats.switches + if b.lastServed = some d.opposite then 1 else 0 } }

/-- Ticket `t` of cell `c` takes a slot.  `why` tells how the direction was chosen, if the bus was
empty and a choice was made. -/
def occupy (b : Bus) (t : Ticket) (c : Cell) (why : Option Reason) : Bus :=
  let b := if b.active = 0 then b.beginCycle c.direction why else b
  { b with
    active := b.active + 1
    current := some c.direction
    held := b.held.set c (b.held.get c + 1)
    holders := (t, c) :: b.holders
    stats := b.stats.countAdmission c (b.active + 1) }

/-- The bus after it was counted that the last admission happened on arrival. -/
def countImmediate (b : Bus) : Bus :=
  { b with stats := { b.stats with immediate := b.stats.immediate + 1 } }

/-- Ticket `t`, admitted from a queue, has a grant to pick up. -/
def grant (b : Bus) (t : Ticket) : Bus :=
  { b with
    granted := t :: b.granted
    stats := { b.stats with queued := b.stats.queued + 1 } }

/-! ### Serving the queues -/

/-- The next waiter of direction `d`, elevated before normal and oldest first, with its cell and
the bus without it. -/
def popWaiter? (b : Bus) (d : Direction) : Option (Ticket × Cell × Bus) :=
  match b.waiting.get ⟨d, .elevated⟩, b.waiting.get ⟨d, .normal⟩ with
  | t :: rest, _ =>
    some (t, ⟨d, .elevated⟩, { b with waiting := b.waiting.set ⟨d, .elevated⟩ rest })
  | [], t :: rest =>
    some (t, ⟨d, .normal⟩, { b with waiting := b.waiting.set ⟨d, .normal⟩ rest })
  | [], [] => none

/-- Admits waiters of direction `d` one after the other into at most this many slots. -/
def serve (d : Direction) (why : Option Reason) : Nat → Bus → List Ticket × Bus
  | 0, b => ([], b)
  | room + 1, b =>
    match b.popWaiter? d with
    | none => ([], b)
    | some (t, c, b) =>
      let (woken, b) := serve d why room ((b.occupy t c why).grant t)
      (t :: woken, b)

/-- Admits whoever may go: more callers of the running direction, unless it yields, or the first
callers of the next cycle. -/
def dispatch (b : Bus) : List Ticket × Bus :=
  match b.current with
  | some d =>
    if b.yields d then ([], b) else serve d none (b.config.capacity - b.active) b
  | none =>
    match b.nextTurn with
    | none => ([], b)
    | some (d, why) => serve d (some why) (b.config.capacity - b.active) b

/-! ### Arrivals -/

/-- A request of cell `c` arrives and takes a slot or joins its queue. -/
def request (b : Bus) (c : Cell) : Request × Bus :=
  let t := b.nextTicket
  if b.accepts c then
    (.admitted t, (b.issued.occupy t c none).countImmediate)
  else
    (.queued t, { b.issued with waiting := b.waiting.set c (b.waiting.get c ++ [t]) })

/-- A request of cell `c` that takes a slot or goes away. -/
def tryRequest (b : Bus) (c : Cell) : Option Ticket × Bus :=
  if b.accepts c then
    (some b.nextTicket, (b.issued.occupy b.nextTicket c none).countImmediate)
  else
    (none, b)

/-- The caller of ticket `t` asks for its grant; the answer is whether there was one. -/
def takeGrant (b : Bus) (t : Ticket) : Bool × Bus :=
  (t ∈ b.granted, { b with granted := b.granted.filter (· ≠ t) })

/-! ### Departures -/

/-- The oldest ticket that holds a slot in cell `c`. -/
def oldestHolder? (b : Bus) (c : Cell) : Option Ticket := (b.holdersIn c).min?

/-- The bus after a refused release. -/
def countRejected (b : Bus) : Bus :=
  { b with stats := { b.stats with rejectedReleases := b.stats.rejectedReleases + 1 } }

/-- The bus after ticket `t` gave back its slot in cell `c`, before anybody else moves. -/
def vacated (b : Bus) (t : Ticket) (c : Cell) : Bus :=
  { b with
    active := b.active - 1
    current := if b.active - 1 = 0 then none else b.current
    held := b.held.set c (b.held.get c - 1)
    holders := b.holders.filter fun h => h.1 ≠ t }

/-- One slot of cell `c` is given back, by the oldest ticket that holds one. -/
def release (b : Bus) (c : Cell) : Except Fault (List Ticket) × Bus :=
  match b.oldestHolder? c with
  | none => (.error (.unmatchedRelease c), b.countRejected)
  | some t =>
    let (woken, b) := (b.vacated t c).dispatch
    (.ok woken, b)

/-- The slot of ticket `t` is given back. -/
def releaseTicket (b : Bus) (t : Ticket) : Except Fault (List Ticket) × Bus :=
  match b.cellOf? t with
  | none => (.error (.staleTicket t), b.countRejected)
  | some c =>
    let (woken, b) := (b.vacated t c).dispatch
    (.ok woken, b)

/-- The cell in whose queue ticket `t` waits. -/
def queueOf? (b : Bus) (t : Ticket) : Option Cell :=
  Cell.all.find? fun c => t ∈ b.waiting.get c

/-- The bus after ticket `t` left the queue of cell `c`, before anybody else moves. -/
def unqueued (b : Bus) (t : Ticket) (c : Cell) : Bus :=
  { b with
    waiting := b.waiting.set c ((b.waiting.get c).erase t)
    stats := { b.stats with withdrawn := b.stats.withdrawn + 1 } }

/-- Ticket `t` gives up waiting.  Others may have waited only because of it. -/
def withdraw (b : Bus) (t : Ticket) : Withdrawal × Bus :=
  match b.queueOf? t with
  | some c =>
    let (woken, b) := (b.unqueued t c).dispatch
    (.removed woken, b)
  | none => (if t ∈ b.granted then .alreadyAdmitted else .unknown, b)

end Bus

end HalfDuplex

import HalfDuplex.Config
import HalfDuplex.Snapshot

/-!
# The state of a bus

A `Bus` is the complete bookkeeping of one half-duplex bus, without callers, locks or time: the
settings, the held slots, the queues and the counters.

* `Bus.new` is an empty bus.
* `Bus.waiting` holds one queue of tickets for each cell, oldest first.
* `Bus.holders` says which tickets hold a slot and in which cell, `Bus.held` counts them.
* `Bus.granted` are the tickets that got their slot from a queue and whose callers have not yet
  picked it up.
* `Bus.snapshot` is what an outsider sees.
-/

namespace HalfDuplex

/-- The bookkeeping of one bus. -/
structure Bus where
  config : Config
  /-- The number of held slots. -/
  active : Nat := 0
  /-- The direction in which the bus runs. -/
  current : Option Direction := none
  /-- The direction of the last cycle. -/
  lastServed : Option Direction := none
  /-- The queue of each cell, oldest first. -/
  waiting : PerCell (List Ticket) := .replicate []
  /-- The number of held slots in each cell. -/
  held : PerCell Nat := .replicate 0
  /-- The tickets that hold a slot, with their cells. -/
  holders : List (Ticket × Cell) := []
  /-- The tickets admitted from a queue and not yet picked up. -/
  granted : List Ticket := []
  /-- How many cycles in a row the last direction won over waiters of the other only because it
  had elevated ones. -/
  streak : Nat := 0
  /-- The number of the next request. -/
  nextTicket : Ticket := 0
  stats : Stats := {}
  deriving DecidableEq, Repr

namespace Bus

/-- The empty bus with these settings. -/
def new (config : Config) : Bus := { config := config }

variable (b : Bus)

/-- Somebody waits in cell `c`. -/
def hasWaitersIn (c : Cell) : Bool := !(b.waiting.get c).isEmpty

/-- Somebody waits for direction `d`. -/
def hasWaiters (d : Direction) : Bool :=
  b.hasWaitersIn ⟨d, .elevated⟩ || b.hasWaitersIn ⟨d, .normal⟩

/-- The number of waiters in each cell. -/
def waitingCounts : PerCell Nat := b.waiting.map List.length

/-- The number of waiters. -/
def totalWaiting : Nat := b.waitingCounts.sum

/-- No slot is held and nobody waits. -/
def isIdle : Bool := b.active = 0 && b.totalWaiting = 0

/-- The tickets that hold a slot, in arrival order. -/
def holderTickets : List Ticket := (b.holders.map Prod.fst).mergeSort

/-- The tickets that were granted a slot and not picked up, in arrival order. -/
def grantedTickets : List Ticket := b.granted.mergeSort

/-- The tickets that hold a slot in cell `c`. -/
def holdersIn (c : Cell) : List Ticket :=
  (b.holders.filter fun h => h.2 = c).map Prod.fst

/-- The cell in which a ticket holds a slot. -/
def cellOf? (t : Ticket) : Option Cell := b.holders.lookup t

/-- What an outsider sees. -/
def snapshot : Snapshot where
  capacity := b.config.capacity
  active := b.active
  current := b.current
  lastServed := b.lastServed
  waiting := b.waitingCounts
  held := b.held
  stats := b.stats

end Bus

end HalfDuplex

import HalfDuplex.Stats

/-!
# Snapshots

A `Snapshot` is a copy of what an outsider may know of a bus at one moment: counts instead of
tickets.  Snapshots also arrive in documents, so their counts need not fit together.
-/

namespace HalfDuplex

/-- The visible state of a bus at one moment. -/
structure Snapshot where
  capacity : Nat
  /-- The number of held slots. -/
  active : Nat
  /-- The direction in which the bus runs. -/
  current : Option Direction
  /-- The direction of the last cycle. -/
  lastServed : Option Direction
  /-- The number of waiters in each cell. -/
  waiting : PerCell Nat
  /-- The number of held slots in each cell. -/
  held : PerCell Nat
  stats : Stats
  deriving DecidableEq, Repr

namespace Snapshot

/-- No slot is held and nobody waits.  The waiters are only added up when no slot is held. -/
def isIdle (s : Snapshot) : Except Overflow Bool :=
  if s.active = 0 then s.waiting.total.map (· == 0) else .ok false

end Snapshot

end HalfDuplex

import HalfDuplex.Cell

/-!
# What a bus has done so far

`Stats` counts the admissions of a bus by the way they came about, by direction and by priority,
and the turns of the bus.  The counters only grow.

* `Stats.countAdmission` is the bookkeeping of one admission.
-/

namespace HalfDuplex

/-- The running counters of a bus. -/
structure Stats where
  admissions : Nat := 0
  /-- Admissions on arrival. -/
  immediate : Nat := 0
  /-- Admissions from a queue. -/
  queued : Nat := 0
  outbound : Nat := 0
  inbound : Nat := 0
  elevated : Nat := 0
  normal : Nat := 0
  /-- How often the empty bus began to run. -/
  cycles : Nat := 0
  /-- How often it began to run in another direction than before. -/
  switches : Nat := 0
  /-- Requests pulled out of a queue. -/
  withdrawn : Nat := 0
  /-- Releases without a slot to release. -/
  rejectedReleases : Nat := 0
  /-- The most slots held at a time. -/
  peakActive : Nat := 0
  deriving DecidableEq, Repr

namespace Stats

/-- The counters after an admission in cell `c` that brings the held slots to `active`. -/
def countAdmission (s : Stats) (c : Cell) (active : Nat) : Stats :=
  { s with
    admissions := s.admissions + 1
    peakActive := max s.peakActive active
    outbound := s.outbound + if c.direction = .outbound then 1 else 0
    inbound := s.inbound + if c.direction = .inbound then 1 else 0
    elevated := s.elevated + if c.priority = .elevated then 1 else 0
    normal := s.normal + if c.priority = .normal then 1 else 0 }

/-- The counters that grow by one at a time, in their fixed order. -/
def tallies (s : Stats) : List Nat :=
  [s.admissions, s.immediate, s.queued, s.outbound, s.inbound, s.elevated, s.normal, s.cycles,
    s.switches, s.withdrawn, s.rejectedReleases]

/-- All counters in their fixed order; the peak comes last. -/
def toList (s : Stats) : List Nat := s.tallies ++ [s.peakActive]

end Stats

end HalfDuplex

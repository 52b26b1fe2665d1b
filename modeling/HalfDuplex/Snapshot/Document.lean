import HalfDuplex.Json.Printer
import HalfDuplex.Json.Record
import HalfDuplex.Snapshot

/-!
# Snapshots as documents

The JSON forms of directions, priorities, counts by cell, counters and whole snapshots.  All
fields have to be there, but for the two directions of a snapshot, which may be missing or null.

* `Snapshot.toJson` and `Snapshot.ofJson?` write and read the record, `Snapshot.read?` a text.
-/

namespace HalfDuplex

open Json

/-- A count in a document: a 64-bit word. -/
def count? (v : Value) : Option Nat := v.natUpTo? Word.max64

namespace Direction

/-- The JSON form of a direction. -/
def toJson (d : Direction) : Value := .text d.name

/-- The direction with exactly this name. -/
def ofName? (s : String) : Option Direction :=
  if s = "outbound" then some outbound else if s = "inbound" then some inbound else none

/-- The direction of a JSON value. -/
def ofJson? (v : Value) : Option Direction := v.choice?.bind ofName?

end Direction

namespace Priority

/-- The JSON form of a priority. -/
def toJson (p : Priority) : Value := .text p.name

/-- The priority with exactly this name. -/
def ofName? (s : String) : Option Priority :=
  if s = "elevated" then some elevated else if s = "normal" then some normal else none

/-- The priority of a JSON value. -/
def ofJson? (v : Value) : Option Priority := v.choice?.bind ofName?

end Priority

namespace PerCell

/-- The field names of counts by cell. -/
def fieldNames : List String :=
  ["outbound_elevated", "outbound_normal", "inbound_elevated", "inbound_normal"]

/-- The JSON form of counts by cell. -/
def toJson (f : PerCell Nat) : Value :=
  .record
    [("outbound_elevated", .nat f.outboundElevated), ("outbound_normal", .nat f.outboundNormal),
      ("inbound_elevated", .nat f.inboundElevated), ("inbound_normal", .nat f.inboundNormal)]

/-- The counts by cell of a JSON value. -/
def ofJson? (v : Value) : Option (PerCell Nat) :=
  match v.fields? fieldNames false with
  | some [oe, on, ie, inn] => do
    return ⟨← required count? oe, ← required count? on, ← required count? ie,
      ← required count? inn⟩
  | _ => none

end PerCell

namespace Stats

/-- The field names of the counters in their fixed order. -/
def fieldNames : List String :=
  ["admissions", "immediate_admissions", "queued_admissions", "outbound_admissions",
    "inbound_admissions", "elevated_admissions", "normal_admissions", "cycles",
    "direction_switches", "withdrawn", "rejected_releases", "peak_active"]

/-- The JSON form of counters. -/
def toJson (s : Stats) : Value :=
  .record
    [("admissions", .nat s.admissions), ("immediate_admissions", .nat s.immediate),
      ("queued_admissions", .nat s.queued), ("outbound_admissions", .nat s.outbound),
      ("inbound_admissions", .nat s.inbound), ("elevated_admissions", .nat s.elevated),
      ("normal_admissions", .nat s.normal), ("cycles", .nat s.cycles),
      ("direction_switches", .nat s.switches), ("withdrawn", .nat s.withdrawn),
      ("rejected_releases", .nat s.rejectedReleases), ("peak_active", .nat s.peakActive)]

/-- The counters of a JSON value. -/
def ofJson? (v : Value) : Option Stats :=
  match v.fields? fieldNames false with
  | some [admissions, immediate, queued, outbound, inbound, elevated, normal, cycles, switches,
      withdrawn, rejectedReleases, peakActive] => do
    return {
      admissions := ← required count? admissions
      immediate := ← required count? immediate
      queued := ← required count? queued
      outbound := ← required count? outbound
      inbound := ← required count? inbound
      elevated := ← required count? elevated
      normal := ← required count? normal
      cycles := ← required count? cycles
      switches := ← required count? switches
      withdrawn := ← required count? withdrawn
      rejectedReleases := ← required count? rejectedReleases
      peakActive := ← required count? peakActive }
  | _ => none

end Stats

namespace Snapshot

/-- The field names of a snapshot in their fixed order. -/
def fieldNames : List String :=
  ["capacity", "active_count", "current_direction", "last_served_direction", "waiting", "held",
    "stats"]

/-- The JSON form of a snapshot. -/
def toJson (s : Snapshot) : Value :=
  .record
    [("capacity", .nat s.capacity), ("active_count", .nat s.active),
      ("current_direction", .optional Direction.toJson s.current),
      ("last_served_direction", .optional Direction.toJson s.lastServed),
      ("waiting", s.waiting.toJson), ("held", s.held.toJson), ("stats", s.stats.toJson)]

/-- The snapshot of a JSON value. -/
def ofJson? (v : Value) : Option Snapshot :=
  match v.fields? fieldNames false with
  | some [capacity, active, current, lastServed, waiting, held, stats] => do
    return {
      capacity := ← required count? capacity
      active := ← required count? active
      current := ← nullable Direction.ofJson? current
      lastServed := ← nullable Direction.ofJson? lastServed
      waiting := ← required PerCell.ofJson? waiting
      held := ← required PerCell.ofJson? held
      stats := ← required Stats.ofJson? stats }
  | _ => none

/-- The snapshot that a text spells. -/
def read? (s : String) : Option Snapshot := (Value.read? s).bind ofJson?

end Snapshot

end HalfDuplex

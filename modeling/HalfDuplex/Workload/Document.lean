import HalfDuplex.Config.Document
import HalfDuplex.Snapshot.Document
import HalfDuplex.Workload.Fault

/-!
# Workloads as documents

The JSON form of a workload.  Every field may be missing and then keeps its standard value.

* `Workload.toJson` and `Workload.ofJson?` write and read the record, `Workload.read?` a text.
* `Workload.load` reads a file.
-/

namespace HalfDuplex

open Json

namespace Workload

/-- The field names in their fixed order. -/
def fieldNames : List String :=
  ["capacity", "outbound_normal", "inbound_normal", "outbound_elevated", "inbound_elevated",
    "seed", "max_ticks", "tick_micros", "arbiter"]

/-- The JSON form of a workload. -/
def toJson (w : Workload) : Value :=
  .record
    [("capacity", .nat w.capacity), ("outbound_normal", .nat w.outboundNormal),
      ("inbound_normal", .nat w.inboundNormal), ("outbound_elevated", .nat w.outboundElevated),
      ("inbound_elevated", .nat w.inboundElevated), ("seed", .nat w.seed),
      ("max_ticks", .nat w.maxTicks), ("tick_micros", .nat w.tickMicros),
      ("arbiter", .optional Config.toJson w.bus)]

/-- The workload of a JSON value. -/
def ofJson? (v : Value) : Option Workload :=
  match v.fields? fieldNames true with
  | some [capacity, outboundNormal, inboundNormal, outboundElevated, inboundElevated, seed,
      maxTicks, tickMicros, bus] => do
    return {
      capacity := ← orElse standard.capacity count? capacity
      outboundNormal := ← orElse standard.outboundNormal count? outboundNormal
      inboundNormal := ← orElse standard.inboundNormal count? inboundNormal
      outboundElevated := ← orElse standard.outboundElevated count? outboundElevated
      inboundElevated := ← orElse standard.inboundElevated count? inboundElevated
      seed := ← orElse standard.seed count? seed
      maxTicks := ← orElse standard.maxTicks count? maxTicks
      tickMicros := ← orElse standard.tickMicros count? tickMicros
      bus := ← nullable Config.ofJson? bus }
  | _ => none

/-- The workload that a text spells. -/
def read? (s : String) : Option Workload := (Value.read? s).bind ofJson?

/-- The workload that a text spells, or why there is none. -/
def read (s : String) : Except LoadFault Workload :=
  match read? s with
  | some w => .ok w
  | none => .error .malformed

/-- The workload in the file at `path`, of which `content` was read. -/
def load (path : String) : Except FileFault String → Except LoadFault Workload
  | .ok s => read s
  | .error cause => .error (.unreadable path cause)

end Workload

end HalfDuplex

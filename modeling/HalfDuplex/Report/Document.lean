import HalfDuplex.Occupancy.Document
import HalfDuplex.Report

/-!
# Reports as documents

The JSON forms of lengths of time and of reports.  All fields have to be there.

* A length of time is a record of seconds and nanoseconds that has no other fields.  Nanoseconds
  beyond a second are carried over when it is read.
* `Report.toJson` and `Report.ofJson?` write and read the record, `Report.read?` a text.
-/

namespace HalfDuplex

open Json

namespace Span

/-- The field names of a length of time. -/
def fieldNames : List String := ["secs", "nanos"]

/-- The JSON form of a length of time. -/
def toJson (s : Span) : Value :=
  .record [("secs", .nat s.seconds), ("nanos", .nat s.subNanos)]

/-- The length of time of a JSON value, if it is not longer than the longest one. -/
def ofJson? (v : Value) : Option Span :=
  match v.onlyFields? fieldNames with
  | some [seconds, nanos] => do
    let seconds ← required (Value.natUpTo? Word.max64) seconds
    let nanos ← required (Value.natUpTo? Word.max32) nanos
    let span := ofSeconds seconds nanos
    if span.nanos ≤ longest.nanos then some span else none
  | _ => none

end Span

namespace Report

/-- The field names in their fixed order. -/
def fieldNames : List String :=
  ["tasks", "admission_order", "waited", "peak_concurrency", "capacity_violations",
    "direction_violations", "elapsed", "trace", "arbiter"]

/-- The JSON form of a report. -/
def toJson (r : Report) : Value :=
  .record
    [("tasks", .nat r.tasks), ("admission_order", .list .nat r.admissionOrder),
      ("waited", .list .bool r.waited), ("peak_concurrency", .nat r.peakConcurrency),
      ("capacity_violations", .nat r.capacityViolations),
      ("direction_violations", .nat r.directionViolations), ("elapsed", r.elapsed.toJson),
      ("trace", .list TraceEvent.toJson r.trace), ("arbiter", r.bus.toJson)]

/-- The report of a JSON value. -/
def ofJson? (v : Value) : Option Report :=
  match v.fields? fieldNames false with
  | some [tasks, admissionOrder, waited, peakConcurrency, capacityViolations,
      directionViolations, elapsed, trace, bus] => do
    return {
      tasks := ← required count? tasks
      admissionOrder := ← required (Value.list? count?) admissionOrder
      waited := ← required (Value.list? Value.bool?) waited
      peakConcurrency := ← required count? peakConcurrency
      capacityViolations := ← required count? capacityViolations
      directionViolations := ← required count? directionViolations
      elapsed := ← required Span.ofJson? elapsed
      trace := ← required (Value.list? TraceEvent.ofJson?) trace
      bus := ← required Snapshot.ofJson? bus }
  | _ => none

/-- The report that a text spells. -/
def read? (s : String) : Option Report := (Value.read? s).bind ofJson?

end Report

end HalfDuplex

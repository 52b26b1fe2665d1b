import HalfDuplex.Config
import HalfDuplex.Json.Printer
import HalfDuplex.Json.Record

/-!
# Settings as documents

The JSON form of the settings of a bus.  Every field may be missing and then keeps its standard
value.

* `Config.toJson` and `Config.ofJson?` write and read the record, `Config.read?` a text.
-/

namespace HalfDuplex

open Json

namespace Fairness

/-- The JSON form of a fairness rule. -/
def toJson (f : Fairness) : Value := .text f.name

/-- The fairness rule of a JSON value. -/
def ofJson? (v : Value) : Option Fairness := v.choice?.bind ofName?

end Fairness

namespace Config

/-- The field names in their fixed order. -/
def fieldNames : List String :=
  ["capacity", "fairness", "elevated_streak_limit", "yield_to_opposite"]

/-- The JSON form of settings. -/
def toJson (c : Config) : Value :=
  .record
    [("capacity", .nat c.capacity), ("fairness", c.fairness.toJson),
      ("elevated_streak_limit", .nat c.streakLimit),
      ("yield_to_opposite", .bool c.yieldToOpposite)]

/-- The settings of a JSON value. -/
def ofJson? (v : Value) : Option Config :=
  match v.fields? fieldNames true with
  | some [capacity, fairness, streakLimit, yieldToOpposite] => do
    return {
      capacity := ← orElse standard.capacity (Value.natUpTo? Word.max64) capacity
      fairness := ← orElse standard.fairness Fairness.ofJson? fairness
      streakLimit := ← orElse standard.streakLimit (Value.natUpTo? Word.max32) streakLimit
      yieldToOpposite := ← orElse standard.yieldToOpposite Value.bool? yieldToOpposite }
  | _ => none

/-- The settings that a text spells. -/
def read? (s : String) : Option Config := (Value.read? s).bind ofJson?

end Config

end HalfDuplex

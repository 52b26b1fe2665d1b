import HalfDuplex.Json.Parser

/-!
# Records in JSON

A record is written as an object, or as an array of its fields in their fixed order.

* `Value.fields?` finds the fields of a record in either form.  In an object members with other
  keys are ignored, and a field given twice spoils the record.  An array has to give every field;
  for a record whose fields all have defaults it may stop early.  No array may go on.
* `Value.onlyFields?` is the same for a record that accepts no other keys.
* `required`, `orElse`, `nullable` read a field that may or may not be there.
-/

namespace HalfDuplex

namespace Json

namespace Value

/-- The natural number up to `limit` that a value is. -/
def natUpTo? (limit : Nat) : Value → Option Nat
  | number (some n) => if n ≤ limit then some n else none
  | _ => none

/-- The truth value that a value is. -/
def bool? : Value → Option Bool
  | bool b => some b
  | _ => none

/-- The items of an array, if `f` reads each of them. -/
def list? {α : Type} (f : Value → Option α) : Value → Option (List α)
  | array items => items.mapM f
  | _ => none

/-- The name of a choice without content: a string, or an object with that one key and null. -/
def choice? : Value → Option String
  | string s => s
  | object [(k, null)] => k
  | _ => none

/-- The member with key `name`, if there is one. -/
def member? (members : List (Option String × Value)) (name : String) : Option Value :=
  members.lookup (some name)

/-- No key among `names` is given twice, and every key is a text. -/
def wellKeyed (names : List String) (members : List (Option String × Value)) : Bool :=
  members.all (fun m => m.1.isSome)
    && names.all fun name => (members.filter fun m => m.1 = some name).length ≤ 1

/-- The fields of a record with these field names.  `short` allows an array to stop early. -/
def fields? (names : List String) (short : Bool) : Value → Option (List (Option Value))
  | object members =>
    if wellKeyed names members then some (names.map (member? members)) else none
  | array items =>
    if items.length = names.length ∨ (short ∧ items.length ≤ names.length) then
      some (items.map some ++ List.replicate (names.length - items.length) none)
    else none
  | _ => none

/-- The fields of a record that has these fields and no others. -/
def onlyFields? (names : List String) (v : Value) : Option (List (Option Value)) :=
  match v with
  | object members =>
    if members.all fun m => m.1.any (· ∈ names) then v.fields? names false else none
  | v => v.fields? names false

end Value

/-- A field that has to be there. -/
def required {α : Type} (f : Value → Option α) (field : Option Value) : Option α := field.bind f

/-- A field that may be missing. -/
def orElse {α : Type} (default : α) (f : Value → Option α) : Option Value → Option α
  | none => some default
  | some v => f v

/-- A field that may be missing or null. -/
def nullable {α : Type} (f : Value → Option α) : Option Value → Option (Option α)
  | none => some none
  | some .null => some none
  | some v => (f v).map some

end Json

end HalfDuplex

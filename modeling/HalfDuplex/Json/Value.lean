/-!
# JSON values

A `Value` is what a JSON document says.  Objects keep their members in document order, and members
with the same key stay apart: which of them count is for the reader of a record to say.

Two kinds of values are kept without their content, because no record accepts them but an ignored
member may have them: a number that is not a plain natural number (`number none`), and a string
that denotes no text since it escapes an unpaired surrogate (`string none`).
-/

namespace HalfDuplex

namespace Json

/-- A JSON value. -/
inductive Value where
  | null
  | bool (b : Bool)
  /-- A number, with its value if it is written in digits alone. -/
  | number (n : Option Nat)
  /-- A string, with its text if it denotes one. -/
  | string (s : Option String)
  | array (items : List Value)
  | object (members : List (Option String × Value))
  deriving Repr

namespace Value

/-- A natural number. -/
def nat (n : Nat) : Value := number (some n)

/-- A text. -/
def text (s : String) : Value := string (some s)

/-- An object whose keys are texts. -/
def record (members : List (String × Value)) : Value :=
  object (members.map fun (k, v) => (some k, v))

/-- The value of `f a`, or null. -/
def optional {α : Type} (f : α → Value) : Option α → Value
  | some a => f a
  | none => null

/-- An array of the values of `f`. -/
def list {α : Type} (f : α → Value) (xs : List α) : Value := array (xs.map f)

end Value

end Json

end HalfDuplex

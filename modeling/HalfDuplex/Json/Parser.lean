import HalfDuplex.Json.Token
import HalfDuplex.Json.Value

/-!
# Reading JSON

The reader goes through the tokens once.  `Place` says what may come next, and a stack of
`OpenValue`s holds the arrays and objects that are still open, so that documents may be nested as
deep as they like.

* `Value.ofTokens?` reads one value from a row of tokens, to its end.
* `Value.read?` reads a text.  Nothing but blanks may stand around the value.
-/

namespace HalfDuplex

namespace Json

/-- An array or object that is still open.  What was read of it is kept in reverse. -/
inductive OpenValue where
  | array (items : List Value)
  | object (members : List (Option String × Value))
  /-- Above its object: a member whose value is being read. -/
  | member (key : Option String)
  deriving Repr

/-- What may come next. -/
inductive Place where
  /-- A value. -/
  | value
  /-- The first item of an array, or its end. -/
  | firstItem
  /-- The first key of an object, or its end. -/
  | firstKey
  /-- Another key. -/
  | key
  /-- The colon behind a key. -/
  | colon (key : Option String)
  /-- Whatever follows a complete value. -/
  | done (value : Value)
  deriving Repr

namespace Place

/-- The token `t` where a value is expected. -/
def beginValue (stack : List OpenValue) : Token → Option (Place × List OpenValue)
  | .null => some (done .null, stack)
  | .bool b => some (done (.bool b), stack)
  | .number n => some (done (.number n), stack)
  | .string s => some (done (.string s), stack)
  | .openArray => some (firstItem, .array [] :: stack)
  | .openObject => some (firstKey, .object [] :: stack)
  | _ => none

/-- One token. -/
def step : Place → List OpenValue → Token → Option (Place × List OpenValue)
  | value, stack, t => beginValue stack t
  | firstItem, .array [] :: stack, .closeArray => some (done (.array []), stack)
  | firstItem, stack, t => beginValue stack t
  | firstKey, .object [] :: stack, .closeObject => some (done (.object []), stack)
  | firstKey, stack, .string k => some (colon k, stack)
  | key, stack, .string k => some (colon k, stack)
  | colon k, stack, .colon => some (value, .member k :: stack)
  | done v, .array items :: stack, .comma => some (value, .array (v :: items) :: stack)
  | done v, .array items :: stack, .closeArray =>
    some (done (.array (v :: items).reverse), stack)
  | done v, .member k :: .object members :: stack, .comma =>
    some (key, .object ((k, v) :: members) :: stack)
  | done v, .member k :: .object members :: stack, .closeObject =>
    some (done (.object ((k, v) :: members).reverse), stack)
  | _, _, _ => none

/-- The value that is complete behind the last token. -/
def run : Place → List OpenValue → List Token → Option Value
  | done v, [], [] => some v
  | _, _, [] => none
  | place, stack, t :: ts =>
    match place.step stack t with
    | none => none
    | some (place, stack) => run place stack ts

end Place

namespace Value

/-- The value that a row of tokens spells. -/
def ofTokens? (ts : List Token) : Option Value := Place.value.run [] ts

/-- The value that a text spells. -/
def read? (s : String) : Option Value := (Token.scan s.toList).bind ofTokens?

end Value

end Json

end HalfDuplex

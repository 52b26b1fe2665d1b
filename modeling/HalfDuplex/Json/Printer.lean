import HalfDuplex.Json.Token
import HalfDuplex.Json.Value

/-!
# Writing JSON

* `Value.tokens` is the row of tokens of a value, and `Value.write` their spelling without any
  blanks.
* `Value.writeLines` spreads a value over lines, two spaces further in at each level; empty arrays
  and objects stay closed.
-/

namespace HalfDuplex

namespace Json

namespace Value

mutual

/-- The tokens of a value. -/
def tokens : Value → List Token
  | null => [.null]
  | bool b => [.bool b]
  | number n => [.number n]
  | string s => [.string s]
  | array items => .openArray :: itemTokens items ++ [.closeArray]
  | object members => .openObject :: memberTokens members ++ [.closeObject]

/-- The tokens of the items of an array, with commas between them. -/
def itemTokens : List Value → List Token
  | [] => []
  | [v] => v.tokens
  | v :: w :: rest => v.tokens ++ .comma :: itemTokens (w :: rest)

/-- The tokens of the members of an object, with commas between them. -/
def memberTokens : List (Option String × Value) → List Token
  | [] => []
  | [(k, v)] => .string k :: .colon :: v.tokens
  | (k, v) :: m :: rest =>
    .string k :: .colon :: v.tokens ++ .comma :: memberTokens (m :: rest)

end

/-- The text of a value without blanks. -/
def write (v : Value) : String := String.ofList (v.tokens.flatMap Token.spell)

/-- The beginning of a line at a depth. -/
def indentation (depth : Nat) : List Char := '\n' :: List.replicate (2 * depth) ' '

mutual

/-- The spelling of a value over several lines, the first of which is already begun. -/
def spread (depth : Nat) : Value → List Char
  | array [] => ['[', ']']
  | array (v :: rest) =>
    '[' :: spreadItems (depth + 1) (v :: rest) ++ indentation depth ++ [']']
  | object [] => ['\x7b', '\x7d']
  | object (m :: rest) =>
    '\x7b' :: spreadMembers (depth + 1) (m :: rest) ++ indentation depth ++ ['\x7d']
  | null => Token.null.spell
  | bool b => (Token.bool b).spell
  | number n => (Token.number n).spell
  | string s => (Token.string s).spell

/-- The items of an array, each on a line of its own. -/
def spreadItems (depth : Nat) : List Value → List Char
  | [] => []
  | [v] => indentation depth ++ v.spread depth
  | v :: w :: rest => indentation depth ++ v.spread depth ++ ',' :: spreadItems depth (w :: rest)

/-- The members of an object, each on a line of its own. -/
def spreadMembers (depth : Nat) : List (Option String × Value) → List Char
  | [] => []
  | [(k, v)] => indentation depth ++ Literal.spell k ++ ':' :: ' ' :: v.spread depth
  | (k, v) :: m :: rest =>
    indentation depth ++ Literal.spell k ++ ':' :: ' ' :: v.spread depth
      ++ ',' :: spreadMembers depth (m :: rest)

end

/-- The text of a value over several lines. -/
def writeLines (v : Value) : String := String.ofList (v.spread 0)

end Value

end Json

end HalfDuplex

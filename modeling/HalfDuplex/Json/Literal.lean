/-!
# JSON string literals

Between its quotes a string literal spells a list of code points.  Most characters spell
themselves; a backslash begins an escape.  An escape by number spells a 16-bit unit, and two
units in a row can be the halves of one character (a surrogate pair).

* `Literal.text?` joins the halves; a half on its own is no text.
* `Literal.spell` writes a text.
-/

namespace HalfDuplex

namespace Json

namespace Literal

/-- The first half of a surrogate pair. -/
def isHigh (u : Nat) : Bool := 0xD800 ≤ u && u ≤ 0xDBFF

/-- The second half of a surrogate pair. -/
def isLow (u : Nat) : Bool := 0xDC00 ≤ u && u ≤ 0xDFFF

/-- The code point of a surrogate pair. -/
def joined (high low : Nat) : Nat := 0x10000 + (high - 0xD800) * 0x400 + (low - 0xDC00)

/-- The characters that a list of code points and halves spells. -/
def chars? : List Nat → Option (List Char)
  | [] => some []
  | [u] => if isHigh u || isLow u then none else some [Char.ofNat u]
  | u :: v :: rest =>
    if isHigh u then
      if isLow v then (chars? rest).map (Char.ofNat (joined u v) :: ·) else none
    else if isLow u then none
    else (chars? (v :: rest)).map (Char.ofNat u :: ·)

/-- The text that a list of code points and halves spells. -/
def text? (units : List Nat) : Option String := (chars? units).map String.ofList

/-- The code point of an escape by letter. -/
def escaped? : Char → Option Nat
  | '"' => some 0x22
  | '\\' => some 0x5C
  | '/' => some 0x2F
  | 'b' => some 0x08
  | 'f' => some 0x0C
  | 'n' => some 0x0A
  | 'r' => some 0x0D
  | 't' => some 0x09
  | _ => none

/-- The value of a hexadecimal digit. -/
def hexDigit? (c : Char) : Option Nat :=
  if '0' ≤ c ∧ c ≤ '9' then some (c.toNat - '0'.toNat)
  else if 'a' ≤ c ∧ c ≤ 'f' then some (c.toNat - 'a'.toNat + 10)
  else if 'A' ≤ c ∧ c ≤ 'F' then some (c.toNat - 'A'.toNat + 10)
  else none

/-- The spelling of one character: controls, the quote and the backslash are escaped. -/
def spellChar (c : Char) : List Char :=
  if c = '"' then ['\\', '"']
  else if c = '\\' then ['\\', '\\']
  else if c = '\n' then ['\\', 'n']
  else if c = '\r' then ['\\', 'r']
  else if c = '\t' then ['\\', 't']
  else if c.toNat = 0x08 then ['\\', 'b']
  else if c.toNat = 0x0C then ['\\', 'f']
  else if c.toNat < 0x20 then
    ['\\', 'u', '0', '0', Nat.digitChar (c.toNat / 16), Nat.digitChar (c.toNat % 16)]
  else [c]

/-- The spelling of a text between quotes.  A string that is no text is spelled as one unpaired
half. -/
def spell : Option String → List Char
  | some s => '"' :: s.toList.flatMap spellChar ++ ['"']
  | none => ['"', '\\', 'u', 'd', '8', '0', '0', '"']

end Literal

end Json

end HalfDuplex

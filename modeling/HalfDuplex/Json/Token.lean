import HalfDuplex.Json.Literal
import HalfDuplex.Json.Number

/-!
# JSON tokens

A JSON text is a row of tokens with blanks between them.  The scanner goes through the text one
character at a time; `Scan` is where it stands.

* `Scan.step` takes one character and gives the tokens that end with it.
* `Token.scan` gives the tokens of a text, or nothing for a text that has none.
* `Token.spell` writes a token.
-/

namespace HalfDuplex

namespace Json

/-- A token. -/
inductive Token where
  | openArray
  | closeArray
  | openObject
  | closeObject
  | comma
  | colon
  | null
  | bool (b : Bool)
  | number (n : Option Nat)
  | string (s : Option String)
  deriving DecidableEq, Repr

namespace Token

/-- The token of a punctuation mark. -/
def ofMark? : Char → Option Token
  | '[' => some openArray
  | ']' => some closeArray
  | '\x7b' => some openObject
  | '\x7d' => some closeObject
  | ',' => some comma
  | ':' => some colon
  | _ => none

/-- The token of a word. -/
def ofWord? (cs : List Char) : Option Token :=
  if cs = ['n', 'u', 'l', 'l'] then some null
  else if cs = ['t', 'r', 'u', 'e'] then some (bool true)
  else if cs = ['f', 'a', 'l', 's', 'e'] then some (bool false)
  else none

/-- The spelling of a number.  One that is no plain natural number is spelled as minus zero. -/
def spellNumber : Option Nat → List Char
  | some n => Nat.toDigits 10 n
  | none => ['-', '0']

/-- The spelling of a token. -/
def spell : Token → List Char
  | openArray => ['[']
  | closeArray => [']']
  | openObject => ['\x7b']
  | closeObject => ['\x7d']
  | comma => [',']
  | colon => [':']
  | null => ['n', 'u', 'l', 'l']
  | bool true => ['t', 'r', 'u', 'e']
  | bool false => ['f', 'a', 'l', 's', 'e']
  | number n => spellNumber n
  | string s => Literal.spell s

end Token

/-- Where the scanner stands.  What was read of the current token is kept in reverse. -/
inductive Scan where
  /-- Between tokens. -/
  | between
  /-- In a word. -/
  | word (read : List Char)
  /-- In a number. -/
  | number (read : List Char)
  /-- In a string. -/
  | string (units : List Nat)
  /-- In a string, behind a backslash. -/
  | escape (units : List Nat)
  /-- In a string, in an escape by number of which `count` digits were read. -/
  | unit (units : List Nat) (count value : Nat)
  deriving DecidableEq, Repr

namespace Scan

/-- The characters that may stand between tokens. -/
def isSpace (c : Char) : Bool := c ∈ [' ', '\t', '\n', '\r']

/-- The tokens that end when nothing more belongs to the current one. -/
def finish : Scan → Option (List Token)
  | between => some []
  | word read => (Token.ofWord? read.reverse).map ([·])
  | number read => (Number.read read.reverse).map fun n => [.number n]
  | _ => none

/-- The character `c` between tokens. -/
def start (c : Char) : Option (List Token × Scan) :=
  if isSpace c then some ([], between)
  else if c = '"' then some ([], string [])
  else if c.isLower then some ([], word [c])
  else if Number.isPart c then some ([], number [c])
  else (Token.ofMark? c).map fun t => ([t], between)

/-- The character `c` behind a token that it does not belong to. -/
def restart (s : Scan) (c : Char) : Option (List Token × Scan) :=
  match s.finish, start c with
  | some ts, some (us, s) => some (ts ++ us, s)
  | _, _ => none

/-- One character: the tokens that end and where the scanner stands then. -/
def step (s : Scan) (c : Char) : Option (List Token × Scan) :=
  match s with
  | between => start c
  | word read => if c.isLower then some ([], word (c :: read)) else s.restart c
  | number read => if Number.isPart c then some ([], number (c :: read)) else s.restart c
  | string units =>
    if c = '"' then some ([.string (Literal.text? units.reverse)], between)
    else if c = '\\' then some ([], escape units)
    else if c.toNat < 0x20 then none
    else some ([], string (c.toNat :: units))
  | escape units =>
    if c = 'u' then some ([], unit units 0 0)
    else (Literal.escaped? c).map fun u => ([], string (u :: units))
  | unit units count value =>
    (Literal.hexDigit? c).map fun d =>
      if count = 3 then ([], string ((16 * value + d) :: units))
      else ([], unit units (count + 1) (16 * value + d))

/-- The tokens of the characters that follow. -/
def run : Scan → List Char → Option (List Token)
  | s, [] => s.finish
  | s, c :: cs =>
    match s.step c with
    | none => none
    | some (ts, s) => (run s cs).map (ts ++ ·)

end Scan

namespace Token

/-- The tokens of a text. -/
def scan (cs : List Char) : Option (List Token) := Scan.between.run cs

end Token

end Json

end HalfDuplex

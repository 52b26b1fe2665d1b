/-!
# JSON numbers

A JSON number is an optional minus sign, an integer part without needless zeros, and optionally a
fraction and an exponent.

* `Number.read` tells numbers from other texts and gives the value of those that are written as
  a plain natural number: digits alone.
-/

namespace HalfDuplex

namespace Json

namespace Number

/-- The characters that can stand in a number. -/
def isPart (c : Char) : Bool := c.isDigit || c ∈ ['-', '+', '.', 'e', 'E']

/-- The value of a list of digits behind the value `n`. -/
def valueFrom (n : Nat) (digits : List Char) : Nat :=
  digits.foldl (fun n c => 10 * n + (c.toNat - '0'.toNat)) n

/-- One zero, or digits that do not begin with one. -/
def isInteger (cs : List Char) : Bool :=
  match cs with
  | [] => false
  | ['0'] => true
  | '0' :: _ => false
  | cs => cs.all Char.isDigit

/-- One digit or more. -/
def isDigits (cs : List Char) : Bool := !cs.isEmpty && cs.all Char.isDigit

/-- Nothing, or an exponent: a letter, perhaps a sign, and digits. -/
def isExponent : List Char → Bool
  | [] => true
  | e :: '+' :: cs => (e = 'e' || e = 'E') && isDigits cs
  | e :: '-' :: cs => (e = 'e' || e = 'E') && isDigits cs
  | e :: cs => (e = 'e' || e = 'E') && isDigits cs

/-- What follows the integer part: perhaps a fraction, then perhaps an exponent. -/
def isTail : List Char → Bool
  | '.' :: cs => isDigits (cs.takeWhile Char.isDigit) && isExponent (cs.dropWhile Char.isDigit)
  | cs => isExponent cs

/-- A number without a sign. -/
def isUnsigned (cs : List Char) : Bool :=
  isInteger (cs.takeWhile Char.isDigit) && isTail (cs.dropWhile Char.isDigit)

/-- `none` for a text that is no number; otherwise the value, if the number is written as a plain
natural number. -/
def read (cs : List Char) : Option (Option Nat) :=
  if isInteger cs then some (some (valueFrom 0 cs))
  else
    match cs with
    | '-' :: rest => if isUnsigned rest then some none else none
    | cs => if isUnsigned cs then some none else none

end Number

end Json

end HalfDuplex

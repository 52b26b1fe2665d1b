/-!
# Decimal numerals

A count is written as one or more of the digits 0 to 9, with at most one plus sign before them.

* `Numeral.read limit` reads a count of at most `limit`.  It goes from left to right and reports
  the first trouble it meets, so a letter after too many digits is never seen.
-/

namespace HalfDuplex

/-- Why a text is no count. -/
inductive NumeralFault where
  | empty
  | invalidDigit
  | tooLarge
  deriving DecidableEq, Repr

namespace NumeralFault

/-- The text of the fault. -/
def message : NumeralFault → String
  | .empty => "cannot parse integer from empty string"
  | .invalidDigit => "invalid digit found in string"
  | .tooLarge => "number too large to fit in target type"

end NumeralFault

namespace Numeral

/-- The value of a decimal digit. -/
def digit? (c : Char) : Option Nat :=
  if '0' ≤ c ∧ c ≤ '9' then some (c.toNat - '0'.toNat) else none

/-- Reads further digits behind the value `n`. -/
def readDigits (limit : Nat) : Nat → List Char → Except NumeralFault Nat
  | n, [] => .ok n
  | n, c :: cs =>
    match digit? c with
    | none => .error .invalidDigit
    | some d =>
      if 10 * n + d ≤ limit then readDigits limit (10 * n + d) cs else .error .tooLarge

/-- Reads a count of at most `limit`. -/
def read (limit : Nat) (s : String) : Except NumeralFault Nat :=
  match s.toList with
  | [] => .error .empty
  | ['+'] => .error .invalidDigit
  | '+' :: cs => readDigits limit 0 cs
  | cs => readDigits limit 0 cs

/-- The count that a text writes, if it writes one. -/
def read? (limit : Nat) (s : String) : Option Nat := (read limit s).toOption

end Numeral

end HalfDuplex

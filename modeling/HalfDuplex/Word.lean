/-!
# Machine words

Counts that come from outside (documents, handles) are machine words, and a sum of such counts
has to stay one.  Inside the library all counts are natural numbers; this module holds the limits
and the two operations that can leave them:

* `Word.sum` adds a list of counts and answers `Overflow` when the sum is no 64-bit word.
* `Word.room` asks for a list of a known length and answers `Overflow` when its bytes are more than
  any list may have.
-/

namespace HalfDuplex

/-- A number that came out of its range. -/
inductive Overflow where
  /-- A sum is no 64-bit word. -/
  | sum
  /-- A list would need more bytes than any list may have. -/
  | capacity
  deriving DecidableEq, Repr

namespace Overflow

/-- The text under which an overflow is reported. -/
def message : Overflow → String
  | .sum => "attempt to add with overflow"
  | .capacity => "capacity overflow"

end Overflow

namespace Word

/-- How many 32-bit words there are. -/
def count32 : Nat := 0x100000000

/-- How many 64-bit words there are. -/
def count64 : Nat := 0x10000000000000000

/-- The largest 32-bit word. -/
def max32 : Nat := count32 - 1

/-- The largest 64-bit word. -/
def max64 : Nat := count64 - 1

/-- The most bytes that a list may have. -/
def maxBytes : Nat := count64 / 2 - 1

/-- The sum of `xs`, if it is a 64-bit word.  No summand is negative, so a sum that fits has had
no intermediate result that does not. -/
def sum (xs : List Nat) : Except Overflow Nat :=
  let total := xs.foldr (· + ·) 0
  if total ≤ max64 then .ok total else .error .sum

/-- Room for `n` entries of `size` bytes each, all asked for at once.  This is about the size of the
request alone; that there is memory for it is taken for granted. -/
def room (size n : Nat) : Except Overflow Unit :=
  if n * size ≤ maxBytes then .ok () else .error .capacity

end Word

end HalfDuplex

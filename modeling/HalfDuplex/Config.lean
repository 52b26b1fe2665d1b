import HalfDuplex.Word
import HalfDuplex.Text.Blank
import HalfDuplex.Text.Quoted

/-!
# Settings of a bus

A `Config` says how many slots the bus has and how an emptied bus picks a direction when callers
wait on both sides.

* `Fairness.read` reads the name of a rule as people type it: blanks around it, letter case and
  the underscore are forgiven.
* `Config.valid` holds of a bus that can be built: it has at least one slot.
-/

namespace HalfDuplex

/-- How an emptied bus picks a direction when both have waiters and neither is preferred. -/
inductive Fairness where
  /-- The direction that was not served last. -/
  | alternate
  /-- The direction of the oldest waiter. -/
  | oldestFirst
  deriving DecidableEq, Repr

namespace Fairness

/-- The name of the rule in documents and on the command line. -/
def name : Fairness → String
  | alternate => "alternate"
  | oldestFirst => "oldest-first"

/-- The capitalised name used in log fields. -/
def title : Fairness → String
  | alternate => "Alternate"
  | oldestFirst => "OldestFirst"

/-- The numeric code. -/
def code : Fairness → Nat
  | alternate => 0
  | oldestFirst => 1

/-- The rule of a numeric code. -/
def ofCode? : Nat → Option Fairness
  | 0 => some alternate
  | 1 => some oldestFirst
  | _ => none

/-- The rule with exactly this name. -/
def ofName? (s : String) : Option Fairness :=
  if s = "alternate" then some alternate
  else if s = "oldest-first" then some oldestFirst
  else none

/-- The rule that a person's text names; a text that names none comes back, trimmed and in lower
case, quoted in a message. -/
def read (s : String) : Except String Fairness :=
  let word := Text.asciiLower (Text.trim s)
  if word = "alternate" then .ok alternate
  else if word = "oldest-first" ∨ word = "oldest_first" then .ok oldestFirst
  else .error ("unknown fairness policy " ++ Text.quoted word)

end Fairness

/-- The settings of a bus. -/
structure Config where
  /-- The number of slots. -/
  capacity : Nat := 3
  /-- The rule for a contested choice without a preferred side. -/
  fairness : Fairness := .alternate
  /-- How many cycles in a row a direction may win over a waiting one only because it has elevated
  waiters. -/
  streakLimit : Nat := 1
  /-- Whether the running direction takes no more callers while the other side waits. -/
  yieldToOpposite : Bool := false
  deriving DecidableEq, Repr

namespace Config

/-- The settings used when nothing else is said. -/
def standard : Config := {}

/-- The standard settings with another number of slots. -/
def withCapacity (capacity : Nat) : Config := { standard with capacity := capacity }

/-- A bus needs at least one slot. -/
def valid (c : Config) : Bool := c.capacity ≠ 0

end Config

end HalfDuplex

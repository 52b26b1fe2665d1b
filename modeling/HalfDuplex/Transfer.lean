import HalfDuplex.Span
import HalfDuplex.Transfer.Stream
import HalfDuplex.Workload

/-!
# Transfer times

How long each task keeps its slot.  A `Transfer` gives a length of time for every task number.

* `Transfer.fixed` : the same time for all.
* `Workload.transfer` : a random number of ticks below a bound.  Each task draws from a stream of
  its own, so the order in which tasks start does not matter.
-/

namespace HalfDuplex

/-- How long the task with a number keeps its slot. -/
abbrev Transfer := Nat → Span

namespace Transfer

/-- Every task takes the same time. -/
def fixed (time : Span) : Transfer := fun _ => time

/-- A number below `bound` from two random 64-bit words.  The bound scales the first word to a
whole and a fractional part; the second word only refines the fraction, where the first leaves
open whether it carries. -/
def drawBelow (bound : Nat) (words : Nat × Nat) : Nat :=
  let product := words.1 * bound
  let whole := product / Word.count64
  let fraction := product % Word.count64
  let refinement := words.2 * bound / Word.count64
  if Word.count64 - bound < fraction ∧ Word.count64 ≤ fraction + refinement then whole + 1
  else whole

/-- The seed of the stream of a task. -/
def taskSeed (seed id : Nat) : UInt64 :=
  UInt64.ofNat seed ^^^ (UInt64.ofNat id + 1) * 0x9E3779B97F4A7C15

end Transfer

namespace Workload

/-- The ticks that a task keeps its slot; at most a 32-bit word. -/
def ticks (w : Workload) (id : Nat) : Nat :=
  if w.maxTicks = 0 then 0
  else min (Transfer.drawBelow w.maxTicks (Stream.pair (Transfer.taskSeed w.seed id))) Word.max32

/-- The random transfer times of a workload. -/
def transfer (w : Workload) : Transfer :=
  fun id => (Span.ofMicros w.tickMicros).scale (w.ticks id)

end Workload

end HalfDuplex

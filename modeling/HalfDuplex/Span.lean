import HalfDuplex.Word

/-!
# Lengths of time

A `Span` is a whole number of nanoseconds.  The longest one counts the largest 64-bit word of
seconds and one nanosecond less than another.

* `Span.text` writes a span in the largest unit that keeps its whole part above zero, with as
  many decimals as the value needs: `1.5µs`, `120ms`, `1.00000001s`.
* `Span.scale` multiplies and stops at the longest span.
-/

namespace HalfDuplex

/-- A length of time. -/
structure Span where
  nanos : Nat
  deriving DecidableEq, Repr

namespace Span

/-- How many bytes a span takes: its seconds and its nanoseconds. -/
def bytes : Nat := 16

/-- The nanoseconds of one second. -/
def nanosPerSecond : Nat := 1000000000

/-- The longest span. -/
def longest : Span := ⟨Word.max64 * nanosPerSecond + 999999999⟩

/-- The span of whole seconds and further nanoseconds. -/
def ofSeconds (seconds nanos : Nat) : Span := ⟨seconds * nanosPerSecond + nanos⟩

/-- The span of a number of microseconds. -/
def ofMicros (micros : Nat) : Span := ⟨micros * 1000⟩

/-- The whole seconds of a span. -/
def seconds (s : Span) : Nat := s.nanos / nanosPerSecond

/-- The nanoseconds of a span beyond its whole seconds. -/
def subNanos (s : Span) : Nat := s.nanos % nanosPerSecond

/-- A span `n` times over, at most the longest one. -/
def scale (s : Span) (n : Nat) : Span := ⟨min (s.nanos * n) longest.nanos⟩

/-- The decimals of a fraction that is written with `width` digits: leading zeros stay, trailing
ones go, and with nothing left there is no point either. -/
def decimals (width fraction : Nat) : String :=
  let digits := (Nat.toDigits 10 fraction)
  let padded := List.replicate (width - digits.length) '0' ++ digits
  let kept := (padded.reverse.dropWhile (· == '0')).reverse
  if kept.isEmpty then "" else String.ofList ('.' :: kept)

/-- The span in a unit of `size` nanoseconds, which is a one with `width` zeros. -/
def inUnit (s : Span) (size width : Nat) (unit : String) : String :=
  toString (s.nanos / size) ++ decimals width (s.nanos % size) ++ unit

/-- The text of a span. -/
def text (s : Span) : String :=
  if nanosPerSecond ≤ s.nanos then s.inUnit nanosPerSecond 9 "s"
  else if 1000000 ≤ s.nanos then s.inUnit 1000000 6 "ms"
  else if 1000 ≤ s.nanos then s.inUnit 1000 3 "µs"
  else s.inUnit 1 0 "ns"

end Span

end HalfDuplex

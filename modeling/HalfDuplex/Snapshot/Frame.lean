import HalfDuplex.Snapshot

/-!
# Snapshot frames

A snapshot as a row of 144 bytes, all words little-endian: a magic word and a version, two counts
and two directions, the eight counts by cell, and the eleven tallies of the counters.  The first
fourteen words have 32 bits and the tallies 64; larger counts lose their high bits.  The peak is
not part of a frame.

* `Frame.encode` writes the frame of a snapshot.
* `Frame.header` checks a row of bytes and reads what stands before the counts by cell.
-/

namespace HalfDuplex

namespace Frame

/-- The first word of a frame: the letters `BUS1`. -/
def magic : Nat := 0x31535542

/-- The second word of a frame. -/
def version : Nat := 1

/-- The number of bytes in a frame. -/
def size : Nat := 144

/-- The word for a direction that is not there. -/
def noDirection : Nat := Word.max32

/-- The lowest `width` bytes of a number, lowest first. -/
def bytes : Nat → Nat → List UInt8
  | 0, _ => []
  | width + 1, n => UInt8.ofNat n :: bytes width (n / 256)

/-- The number that a row of bytes spells, lowest first. -/
def ofBytes : List UInt8 → Nat
  | [] => 0
  | b :: rest => b.toNat + 256 * ofBytes rest

/-- The word for a direction. -/
def directionWord : Option Direction → Nat
  | some d => d.code
  | none => noDirection

/-- The 32-bit words of a frame. -/
def words (s : Snapshot) : List Nat :=
  [magic, version, s.capacity, s.active, directionWord s.current, directionWord s.lastServed]
    ++ s.waiting.toList ++ s.held.toList

/-- The frame of a snapshot. -/
def encode (s : Snapshot) : List UInt8 :=
  (words s).flatMap (bytes 4) ++ s.stats.tallies.flatMap (bytes 8)

/-- Why a row of bytes is no frame. -/
inductive Defect where
  /-- It is too short or too long, or a direction word says nothing. -/
  | malformed
  /-- It does not begin with the magic word. -/
  | badMagic
  /-- The version is another. -/
  | badVersion
  deriving DecidableEq, Repr

namespace Defect

/-- The number of a defect. -/
def code : Defect → Int
  | malformed => -2
  | badMagic => -8
  | badVersion => -9

end Defect

/-- What stands at the beginning of a frame. -/
structure Header where
  capacity : Nat
  active : Nat
  current : Option Direction
  lastServed : Option Direction
  deriving DecidableEq, Repr

/-- The 32-bit word number `i` of a row of bytes, if the row is long enough. -/
def word? (data : List UInt8) (i : Nat) : Option Nat :=
  if 4 * i + 4 ≤ data.length then some (ofBytes ((data.drop (4 * i)).take 4)) else none

/-- The direction that a word says. -/
def direction (word : Nat) : Except Defect (Option Direction) :=
  if word = noDirection then .ok none
  else
    match Direction.ofCode? word with
    | some d => .ok (some d)
    | none => .error .malformed

/-- Checks a row of bytes and reads its header. -/
def header (data : List UInt8) : Except Defect Header :=
  match word? data 0 with
  | none => .error .malformed
  | some first =>
    if first ≠ magic then .error .badMagic
    else
      match word? data 1 with
      | none => .error .malformed
      | some second =>
        if second ≠ version then .error .badVersion
        else if data.length ≠ size then .error .malformed
        else
          match word? data 2, word? data 3, word? data 4, word? data 5 with
          | some capacity, some active, some current, some lastServed => do
            return {
              capacity := capacity
              active := active
              current := ← direction current
              lastServed := ← direction lastServed }
          | _, _, _, _ => .error .malformed

/-- The number that tells whether a row of bytes is a frame: 0 if it is. -/
def verdict (data : List UInt8) : Int :=
  match header data with
  | .ok _ => 0
  | .error defect => defect.code

end Frame

end HalfDuplex

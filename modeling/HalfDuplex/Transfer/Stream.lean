import HalfDuplex.Word

/-!
# A stream of random words

The words for transfer times come from a block cipher in counter mode.  Its key is spread from a
64-bit seed; only the first block of a stream is ever needed.

* `Stream.key` : eight words from a seed, by a linear congruence whose state is scrambled on the
  way out.
* `Stream.block` : the first block of a key, sixteen words.  The state is four rows of four words;
  six times its columns and then its diagonals are mixed, and the result is added to the state
  it began with.
* `Stream.pair` : the first two 64-bit words.
-/

namespace HalfDuplex

namespace Stream

/-! ### The key -/

/-- The next state of the congruence. -/
def advance (s : UInt64) : UInt64 := s * 6364136223846793005 + 11634580027462260723

/-- A word rotated to the right. -/
def rotateRight (w : UInt32) (n : UInt32) : UInt32 :=
  (w >>> (n % 32)) ||| (w <<< ((32 - n % 32) % 32))

/-- A word rotated to the left. -/
def rotateLeft (w : UInt32) (n : UInt32) : UInt32 := rotateRight w (32 - n % 32)

/-- The word that a state gives out: its upper half folded in, rotated by its highest bits. -/
def scramble (s : UInt64) : UInt32 :=
  rotateRight (((s >>> 18) ^^^ s) >>> 27).toUInt32 (s >>> 59).toUInt32

/-- The next `n` words of the congruence. -/
def words : Nat → UInt64 → List UInt32
  | 0, _ => []
  | n + 1, s => scramble (advance s) :: words n (advance s)

/-! ### The block -/

/-- Four words in a row. -/
structure Row where
  a : UInt32
  b : UInt32
  c : UInt32
  d : UInt32
  deriving DecidableEq, Repr

namespace Row

/-- The row of the first four words of a list. -/
def ofList : List UInt32 → Row
  | a :: b :: c :: d :: _ => ⟨a, b, c, d⟩
  | _ => ⟨0, 0, 0, 0⟩

/-- The words of a row. -/
def toList (r : Row) : List UInt32 := [r.a, r.b, r.c, r.d]

/-- Combines two rows word by word. -/
def zip (f : UInt32 → UInt32 → UInt32) (r s : Row) : Row :=
  ⟨f r.a s.a, f r.b s.b, f r.c s.c, f r.d s.d⟩

/-- The words of two rows added. -/
def add (r s : Row) : Row := zip (· + ·) r s

/-- The words of a row combined with those of another, each then rotated to the left. -/
def mix (r s : Row) (n : UInt32) : Row := zip (fun x y => rotateLeft (x ^^^ y) n) r s

/-- The row with its first word moved to the end. -/
def turn (r : Row) : Row := ⟨r.b, r.c, r.d, r.a⟩

end Row

/-- The state of the cipher: four rows. -/
structure State where
  top : Row
  upper : Row
  lower : Row
  bottom : Row
  deriving DecidableEq, Repr

namespace State

/-- Mixes all four columns. -/
def columns (s : State) : State :=
  let top := s.top.add s.upper
  let bottom := s.bottom.mix top 16
  let lower := s.lower.add bottom
  let upper := s.upper.mix lower 12
  let top := top.add upper
  let bottom := bottom.mix top 8
  let lower := lower.add bottom
  let upper := upper.mix lower 7
  ⟨top, upper, lower, bottom⟩

/-- The state with its diagonals as columns. -/
def slant (s : State) : State :=
  ⟨s.top, s.upper.turn, s.lower.turn.turn, s.bottom.turn.turn.turn⟩

/-- The state with its columns back as diagonals. -/
def unslant (s : State) : State :=
  ⟨s.top, s.upper.turn.turn.turn, s.lower.turn.turn, s.bottom.turn⟩

/-- Mixes the columns and then the diagonals. -/
def round (s : State) : State := s.columns.slant.columns.unslant

/-- Two states added word by word. -/
def add (s t : State) : State :=
  ⟨s.top.add t.top, s.upper.add t.upper, s.lower.add t.lower, s.bottom.add t.bottom⟩

/-- The words of a state. -/
def toList (s : State) : List UInt32 :=
  s.top.toList ++ s.upper.toList ++ s.lower.toList ++ s.bottom.toList

end State

/-- The state that a key begins with: four constants, the key, and a counter at zero. -/
def initial (key : List UInt32) : State where
  top := ⟨0x61707865, 0x3320646e, 0x79622d32, 0x6b206574⟩
  upper := .ofList key
  lower := .ofList (key.drop 4)
  bottom := ⟨0, 0, 0, 0⟩

/-- The key of a seed. -/
def key (seed : UInt64) : List UInt32 := words 8 seed

/-- The first block of a key. -/
def block (key : List UInt32) : List UInt32 :=
  ((Nat.repeat State.round 6 (initial key)).add (initial key)).toList

/-- Two words as one, the lower half first. -/
def join (low high : UInt32) : Nat := low.toNat + Word.count32 * high.toNat

/-- The first two 64-bit words of the stream of a seed. -/
def pair (seed : UInt64) : Nat × Nat :=
  match block (key seed) with
  | a :: b :: c :: d :: _ => (join a b, join c d)
  | _ => (0, 0)

end Stream

end HalfDuplex

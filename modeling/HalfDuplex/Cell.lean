import HalfDuplex.Word

/-!
# Directions, priorities and cells

All callers on the bus at the same time move data the same way.  A request names its `Direction`
and its `Priority`; the pair is a `Cell`, and the bus keeps one queue and one count of held slots
for each of the four cells (`PerCell`).

* `Direction.ofCode?`, `Priority.ofCode?` read the numeric codes used on handles and in frames.
* `PerCell.sum` adds four counts; `PerCell.total` does so as a machine word.
-/

namespace HalfDuplex

/-- The arrival number of a request.  Comparing two tickets compares arrivals. -/
abbrev Ticket := Nat

/-- The way data moves across the bus. -/
inductive Direction where
  /-- Data is sent to the device. -/
  | outbound
  /-- Data is read back from the device. -/
  | inbound
  deriving DecidableEq, Repr

namespace Direction

/-- The other direction. -/
def opposite : Direction → Direction
  | outbound => inbound
  | inbound => outbound

/-- The name used in documents and messages. -/
def name : Direction → String
  | outbound => "outbound"
  | inbound => "inbound"

/-- The capitalised name used in log fields. -/
def title : Direction → String
  | outbound => "Outbound"
  | inbound => "Inbound"

/-- The numeric code. -/
def code : Direction → Nat
  | outbound => 0
  | inbound => 1

/-- The direction of a numeric code. -/
def ofCode? : Nat → Option Direction
  | 0 => some outbound
  | 1 => some inbound
  | _ => none

@[simp] theorem opposite_opposite (d : Direction) : d.opposite.opposite = d := by cases d <;> rfl

@[simp] theorem opposite_ne (d : Direction) : d.opposite ≠ d := by cases d <;> exact nofun

theorem eq_opposite_of_ne {d d' : Direction} (h : d ≠ d') : d = d'.opposite := by
  cases d <;> cases d'
  · exact absurd rfl h
  · rfl
  · rfl
  · exact absurd rfl h

@[simp] theorem ofCode?_code (d : Direction) : ofCode? d.code = some d := by cases d <;> rfl

end Direction

/-- The urgency of a request.  Elevated requests are served first within their direction. -/
inductive Priority where
  | elevated
  | normal
  deriving DecidableEq, Repr

namespace Priority

/-- The name used in documents and messages. -/
def name : Priority → String
  | elevated => "elevated"
  | normal => "normal"

/-- The numeric code. -/
def code : Priority → Nat
  | normal => 0
  | elevated => 1

/-- The priority of a numeric code. -/
def ofCode? : Nat → Option Priority
  | 0 => some normal
  | 1 => some elevated
  | _ => none

@[simp] theorem ofCode?_code (p : Priority) : ofCode? p.code = some p := by cases p <;> rfl

end Priority

/-- The class of a request: a direction and a priority. -/
structure Cell where
  direction : Direction
  priority : Priority
  deriving DecidableEq, Repr

namespace Cell

/-- The four cells, outbound before inbound and elevated before normal. -/
def all : List Cell :=
  [⟨.outbound, .elevated⟩, ⟨.outbound, .normal⟩, ⟨.inbound, .elevated⟩, ⟨.inbound, .normal⟩]

/-- The cell of a direction code and a priority code. -/
def ofCodes? (direction priority : Nat) : Option Cell :=
  match Direction.ofCode? direction, Priority.ofCode? priority with
  | some d, some p => some ⟨d, p⟩
  | _, _ => none

/-- The words that name a cell in messages: priority first. -/
def name (c : Cell) : String := s!"{c.priority.name} {c.direction.name}"

theorem mem_all (c : Cell) : c ∈ all := by
  rcases c with ⟨d, p⟩
  cases d <;> cases p <;> simp [all]

end Cell

/-- One value for each cell. -/
structure PerCell (α : Type) where
  outboundElevated : α
  outboundNormal : α
  inboundElevated : α
  inboundNormal : α
  deriving DecidableEq, Repr

namespace PerCell

variable {α β : Type}

/-- The same value for every cell. -/
def replicate (a : α) : PerCell α := ⟨a, a, a, a⟩

/-- The value of a cell. -/
def get (f : PerCell α) : Cell → α
  | ⟨.outbound, .elevated⟩ => f.outboundElevated
  | ⟨.outbound, .normal⟩ => f.outboundNormal
  | ⟨.inbound, .elevated⟩ => f.inboundElevated
  | ⟨.inbound, .normal⟩ => f.inboundNormal

/-- Replaces the value of one cell. -/
def set (f : PerCell α) : Cell → α → PerCell α
  | ⟨.outbound, .elevated⟩, a => { f with outboundElevated := a }
  | ⟨.outbound, .normal⟩, a => { f with outboundNormal := a }
  | ⟨.inbound, .elevated⟩, a => { f with inboundElevated := a }
  | ⟨.inbound, .normal⟩, a => { f with inboundNormal := a }

/-- Applies a function to every value. -/
def map (g : α → β) (f : PerCell α) : PerCell β :=
  ⟨g f.outboundElevated, g f.outboundNormal, g f.inboundElevated, g f.inboundNormal⟩

/-- The values of a function on cells. -/
def ofFn (g : Cell → α) : PerCell α :=
  ⟨g ⟨.outbound, .elevated⟩, g ⟨.outbound, .normal⟩, g ⟨.inbound, .elevated⟩,
    g ⟨.inbound, .normal⟩⟩

/-- The four values in the order of `Cell.all`. -/
def toList (f : PerCell α) : List α :=
  [f.outboundElevated, f.outboundNormal, f.inboundElevated, f.inboundNormal]

/-- The sum of four counts. -/
def sum (f : PerCell Nat) : Nat :=
  f.outboundElevated + f.outboundNormal + f.inboundElevated + f.inboundNormal

/-- The sum of four counts, if it is a machine word. -/
def total (f : PerCell Nat) : Except Overflow Nat := Word.sum f.toList

@[simp] theorem get_set (f : PerCell α) (c c' : Cell) (a : α) :
    (f.set c a).get c' = if c' = c then a else f.get c' := by
  rcases c with ⟨d, p⟩
  rcases c' with ⟨d', p'⟩
  cases d <;> cases p <;> cases d' <;> cases p' <;> simp [set, get]

@[simp] theorem set_set (f : PerCell α) (c : Cell) (a a' : α) :
    (f.set c a).set c a' = f.set c a' := by
  rcases c with ⟨d, p⟩
  cases d <;> cases p <;> rfl

@[simp] theorem set_get (f : PerCell α) (c : Cell) : f.set c (f.get c) = f := by
  rcases c with ⟨d, p⟩
  cases d <;> cases p <;> rfl

@[simp] theorem get_map (g : α → β) (f : PerCell α) (c : Cell) :
    (f.map g).get c = g (f.get c) := by
  rcases c with ⟨d, p⟩
  cases d <;> cases p <;> rfl

@[simp] theorem get_ofFn (g : Cell → α) (c : Cell) : (ofFn g).get c = g c := by
  rcases c with ⟨d, p⟩
  cases d <;> cases p <;> rfl

@[simp] theorem get_replicate (a : α) (c : Cell) : (replicate a).get c = a := by
  rcases c with ⟨d, p⟩
  cases d <;> cases p <;> rfl

theorem toList_eq_map_get (f : PerCell α) : f.toList = Cell.all.map f.get := rfl

end PerCell

end HalfDuplex

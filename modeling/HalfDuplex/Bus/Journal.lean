import HalfDuplex.Bus.Run
import HalfDuplex.Remark

/-!
# What a bus reports about its steps

The operations of a bus are silent.  `Bus.journal` tells what would be logged about an operation
on a bus, in order: who was admitted or queued, which releases were refused, and what a release
or a withdrawal set in motion.  Trying a request and picking up a grant are not reported.

* `Bus.dispatchNotes` : a top-up is reported if it admitted anybody, a turn of the bus always.
* `Note.remark` is the log line of a note.
-/

namespace HalfDuplex

namespace Bus

/-- One thing to report. -/
inductive Note where
  | admitted (ticket : Ticket) (cell : Cell) (active : Nat)
  | queued (ticket : Ticket) (cell : Cell) (active : Nat) (current : Option Direction)
  | unmatchedRelease (cell : Cell) (active : Nat)
  | staleRelease (ticket : Ticket) (active : Nat)
  | released (ticket : Ticket) (cell : Cell) (active woken : Nat)
  | withdrawn (ticket : Ticket)
  | refilled (direction : Direction) (woken active : Nat)
  | turned (direction : Direction) (reason : Reason) (woken streak : Nat)
  deriving DecidableEq, Repr

namespace Note

/-- The text of a ticket. -/
def ticketText (t : Ticket) : String := s!"#{t}"

/-- The text of a direction that the bus may not have. -/
def currentText : Option Direction → String
  | some d => s!"Some({d.title})"
  | none => "None"

/-- The fields that tell a cell. -/
def cellFields (c : Cell) : List (String × String) :=
  [("direction", c.direction.name), ("priority", c.priority.name)]

/-- The log line of a note. -/
def remark : Note → Remark
  | admitted t c active =>
    ⟨.trace, "admitted on arrival",
      ("ticket", ticketText t) :: cellFields c ++ [("active", toString active)]⟩
  | queued t c active current =>
    ⟨.debug, "queued",
      ("ticket", ticketText t) :: cellFields c
        ++ [("active", toString active), ("current", currentText current)]⟩
  | unmatchedRelease c active =>
    ⟨.warn, "release without a held slot", cellFields c ++ [("active", toString active)]⟩
  | staleRelease t active =>
    ⟨.warn, "release of a ticket without a slot",
      [("ticket", ticketText t), ("active", toString active)]⟩
  | released t c active woken =>
    ⟨.trace, "released",
      ("ticket", ticketText t) :: cellFields c
        ++ [("active", toString active), ("woken", toString woken)]⟩
  | withdrawn t => ⟨.debug, "withdrawn from queue", [("ticket", ticketText t)]⟩
  | refilled d woken active =>
    ⟨.debug, "refilled",
      [("direction", d.name), ("admitted", toString woken), ("active", toString active)]⟩
  | turned d reason woken streak =>
    ⟨.debug, "bus turned",
      [("direction", d.name), ("reason", reason.name), ("admitted", toString woken),
        ("streak", toString streak)]⟩

end Note

/-- What is reported when bus `b` dispatches. -/
def dispatchNotes (b : Bus) : List Note :=
  let (woken, after) := b.dispatch
  match b.current, b.nextTurn with
  | some d, _ => if woken.isEmpty then [] else [.refilled d woken.length after.active]
  | none, some (d, why) => [.turned d why woken.length after.streak]
  | none, none => []

/-- What is reported when ticket `t` gives back its slot in cell `c`. -/
def releaseNotes (b : Bus) (t : Ticket) (c : Cell) : List Note :=
  let vacated := b.vacated t c
  let (woken, after) := vacated.dispatch
  vacated.dispatchNotes ++ [.released t c after.active woken.length]

/-- What is reported about an operation on bus `b`. -/
def journal (b : Bus) : Op → List Note
  | .request c =>
    match b.request c with
    | (.admitted t, after) => [.admitted t c after.active]
    | (.queued t, after) => [.queued t c after.active after.current]
  | .release c =>
    match b.oldestHolder? c with
    | none => [.unmatchedRelease c b.active]
    | some t => b.releaseNotes t c
  | .releaseTicket t =>
    match b.cellOf? t with
    | none => [.staleRelease t b.active]
    | some c => b.releaseNotes t c
  | .withdraw t =>
    match b.queueOf? t with
    | none => []
    | some c => .withdrawn t :: (b.unqueued t c).dispatchNotes
  | .tryRequest _ => []
  | .takeGrant _ => []

end Bus

end HalfDuplex

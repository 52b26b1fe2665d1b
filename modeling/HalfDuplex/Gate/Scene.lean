import HalfDuplex.Gate

/-!
# Several callers, played in turn

A `Scene` is a gate with a cast: callers that sleep, and slots that somebody keeps.  The moves of
a scene are made one at a time, and after each move every caller that was called wakes and looks
for its grant before the next move is made.

* `Scene.play` makes a move: its answer, and the sleeping callers that returned because of it.
* `Scene.close` gives back the slots that are still kept and takes the gate down.
-/

namespace HalfDuplex

/-- A caller that sleeps at the gate. -/
structure Sleeper where
  /-- The number of the caller. -/
  caller : Nat
  ticket : Ticket
  cell : Cell
  deriving DecidableEq, Repr

/-- A gate with the callers and slots around it. -/
structure Scene where
  gate : Gate
  /-- The number of callers so far that may sleep. -/
  callers : Nat := 0
  /-- The callers that sleep, in order of arrival. -/
  sleepers : List Sleeper := []
  /-- The slots that somebody keeps or kept: the ticket of each while it is kept. -/
  slots : List (Option Ticket) := []
  deriving Repr

/-- One move of a scene. -/
inductive Move where
  /-- A new caller asks for a slot and sleeps if it has to. -/
  | acquire (cell : Cell)
  /-- Somebody asks for a slot and does not sleep. -/
  | tryAcquire (cell : Cell)
  /-- Somebody asks for a slot and waits for a time in which nobody else moves. -/
  | acquireWithin (cell : Cell) (time : Span)
  /-- A slot is given back by cell. -/
  | release (cell : Cell)
  /-- A slot is given back by ticket. -/
  | releaseTicket (ticket : Ticket)
  /-- Somebody asks for a slot and keeps it under the next slot number. -/
  | keep (cell : Cell)
  /-- A kept slot is given back and the outcome is told. -/
  | giveBack (slot : Nat)
  /-- A kept slot is given back and nobody is told. -/
  | drop (slot : Nat)
  /-- Somebody breaks off in the middle of a stretch. -/
  | poison
  deriving DecidableEq, Repr

/-- The answer to a move. -/
inductive MoveAnswer where
  | admitted (admission : Admission)
  /-- The caller with this number sleeps. -/
  | parked (caller : Nat)
  /-- The slot is kept under this number. -/
  | kept (slot : Nat) (admission : Admission)
  | done
  | poisoned
  | failed (fault : Fault)
  deriving DecidableEq, Repr

/-- How a scene ends. -/
inductive Ending where
  /-- Some caller sleeps for ever. -/
  | parked
  | closed
  | failed (fault : CloseFault)
  deriving DecidableEq, Repr

/-- A sleeping caller that returned. -/
structure Return where
  caller : Nat
  outcome : Except Fault Admission

namespace Scene

/-- An empty scene in front of an empty bus. -/
def build (config : Config) : Except Fault Scene :=
  (Gate.build config).map fun gate => { gate := gate }

/-- The caller of a sleeper wakes if it was called, or if the gate is poisoned. -/
def wakes (s : Scene) (sleeper : Sleeper) : Bool :=
  s.gate.poisoned || sleeper.ticket ∈ s.gate.called

/-- One sleeper has its chance to look; it stays or returns. -/
def rouse (s : Scene) (sleeper : Sleeper) : List Return × Scene :=
  if s.wakes sleeper then
    match s.gate.resume sleeper.ticket sleeper.cell with
    | (.ok none, gate) => ([], { s with gate := gate, sleepers := s.sleepers ++ [sleeper] })
    | (.ok (some admission), gate) =>
      ([⟨sleeper.caller, .ok admission⟩], { s with gate := gate })
    | (.error fault, gate) => ([⟨sleeper.caller, .error fault⟩], { s with gate := gate })
  else ([], { s with sleepers := s.sleepers ++ [sleeper] })

/-- Every sleeper has its chance to look, in order of arrival. -/
def rouseAll (s : Scene) : List Return × Scene :=
  s.sleepers.foldl
    (fun (returned, s) sleeper =>
      let (more, s) := s.rouse sleeper
      (returned ++ more, s))
    ([], { s with sleepers := [] })

/-- The answer to a release. -/
def releaseAnswer : Except Fault Unit → MoveAnswer
  | .ok () => .done
  | .error fault => .failed fault

/-- The ticket of a slot while it is kept. -/
def slot? (s : Scene) (i : Nat) : Option Ticket := (s.slots[i]?).join

/-- The slot number `i` is not kept any more. -/
def unkeep (s : Scene) (i : Nat) : Scene := { s with slots := s.slots.set i none }

/-- Gives back slot number `i`, if it is still kept. -/
def giveBack (s : Scene) (i : Nat) : Except Fault Unit × Scene :=
  match s.slot? i with
  | none => (.ok (), s)
  | some t =>
    let (outcome, gate) := s.gate.releaseTicket t
    (outcome, { s.unkeep i with gate := gate })

/-- Makes a move; nobody else moves yet. -/
def move (s : Scene) : Move → MoveAnswer × Scene
  | .acquire c =>
    let s' := { s with callers := s.callers + 1 }
    match s.gate.arrive c with
    | (.ok (.admitted admission), gate) => (.admitted admission, { s' with gate := gate })
    | (.ok (.parked t), gate) =>
      (.parked s.callers,
        { s' with gate := gate, sleepers := s.sleepers ++ [⟨s.callers, t, c⟩] })
    | (.error fault, gate) => (.failed fault, { s' with gate := gate })
  | .tryAcquire c =>
    match s.gate.tryArrive c with
    | (.ok admission, gate) => (.admitted admission, { s with gate := gate })
    | (.error fault, gate) => (.failed fault, { s with gate := gate })
  | .acquireWithin c time =>
    match s.gate.arrive c with
    | (.ok (.admitted admission), gate) => (.admitted admission, { s with gate := gate })
    | (.ok (.parked t), gate) =>
      match gate.expire t c time with
      | (.ok admission, gate) => (.admitted admission, { s with gate := gate })
      | (.error fault, gate) => (.failed fault, { s with gate := gate })
    | (.error fault, gate) => (.failed fault, { s with gate := gate })
  | .release c =>
    let (outcome, gate) := s.gate.release c
    (releaseAnswer outcome, { s with gate := gate })
  | .releaseTicket t =>
    let (outcome, gate) := s.gate.releaseTicket t
    (releaseAnswer outcome, { s with gate := gate })
  | .keep c =>
    match s.gate.arrive c with
    | (.ok (.admitted admission), gate) =>
      (.kept s.slots.length admission,
        { s with gate := gate, slots := s.slots ++ [some admission.ticket] })
    | (.ok (.parked t), gate) =>
      (.parked s.callers,
        { s with gate := gate, sleepers := s.sleepers ++ [⟨s.callers, t, c⟩] })
    | (.error fault, gate) => (.failed fault, { s with gate := gate })
  | .giveBack i =>
    let (outcome, s) := s.giveBack i
    (releaseAnswer outcome, s)
  | .drop i => (.done, (s.giveBack i).2)
  | .poison => (.poisoned, { s with gate := s.gate.poison })

/-- Makes a move and lets the callers that it called return. -/
def play (s : Scene) (m : Move) : MoveAnswer × List Return × Scene :=
  let (answer, s) := s.move m
  let (returned, s) := s.rouseAll
  (answer, returned, s)

/-- Gives back all slots that are still kept, in order, and takes the gate down. -/
def close (s : Scene) : Ending :=
  let s := (List.range s.slots.length).foldl (fun s i => ((s.giveBack i).2.rouseAll).2) s
  if !s.sleepers.isEmpty then .parked
  else
    match s.gate.close with
    | .ok () => .closed
    | .error fault => .failed fault

end Scene

end HalfDuplex

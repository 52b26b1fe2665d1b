import HalfDuplex.Gate
import HalfDuplex.Snapshot.Frame

/-!
# A bus behind numbers

A `Handle` gives the gate of a bus to callers that know numbers only: settings, directions and
priorities come as codes, and every call answers with one number, 0 for success.  A handle may be
null, either because no bus could be built or because it was freed; every call on it fails, but
freeing it again.

* `Handle.build` makes a handle from settings by number.
* `Handle.perform` makes one call of a session with a single caller.  It has no answer for a call
  that would sleep for ever.
* `Handle.validate` checks a frame.
-/

namespace HalfDuplex

/-- The settings of a bus by number. -/
structure NumericConfig where
  capacity : Nat := Config.standard.capacity
  fairness : Nat := Config.standard.fairness.code
  yieldToOpposite : Nat := Config.standard.yieldToOpposite.toNat
  streakLimit : Nat := Config.standard.streakLimit
  deriving DecidableEq, Repr

namespace NumericConfig

/-- The settings that the numbers mean. -/
def config? (n : NumericConfig) : Option Config :=
  (Fairness.ofCode? n.fairness).map fun fairness =>
    { capacity := n.capacity
      fairness := fairness
      streakLimit := n.streakLimit
      yieldToOpposite := n.yieldToOpposite ≠ 0 }

end NumericConfig

/-- The version of the calls. -/
def Handle.version : Nat := 2

/-- A way to a bus, or null. -/
structure Handle where
  gate : Option Gate
  deriving Repr

/-- One call by number. -/
inductive Call where
  | acquire (direction priority : Nat)
  | tryAcquire (direction priority : Nat)
  | acquireWithin (direction priority micros : Nat)
  | release (direction priority : Nat)
  | releaseTicket (ticket : Ticket)
  | stats
  | snapshot
  | free
  deriving DecidableEq, Repr

/-- A call with the handle and the place for its result that the caller passes. -/
structure Invocation where
  call : Call
  /-- The caller passes null instead of the handle. -/
  onNull : Bool := false
  /-- The caller gives no place for a result. -/
  noOutput : Bool := false
  deriving DecidableEq, Repr

/-- What a call writes for its caller. -/
inductive Output where
  | nothing
  | ticket (ticket : Ticket)
  | stats (counters : List Int)
  | frame (data : List UInt8)
  deriving DecidableEq, Repr

/-- The answer to a call. -/
structure Reply where
  code : Int
  output : Output := .nothing
  deriving DecidableEq, Repr

namespace Handle

/-- The number of success. -/
def okCode : Int := 0

/-- The number for a null where there must be something. -/
def nullCode : Int := -1

/-- The number for a code without meaning. -/
def invalidArgumentCode : Int := -2

/-- The number for a bus that is in use. -/
def busyCode : Int := -11

/-- A handle to a new bus; null for settings that make none. -/
def build (n : NumericConfig) : Handle where
  gate := n.config?.bind fun config => (Gate.build config).toOption

/-- The handle is null. -/
def isNull (h : Handle) : Bool := h.gate.isNone

/-- A count as a 32-bit word. -/
def word (n : Nat) : Int := (n % Word.count32 : Nat)

/-- The counters by number: four that tell the moment, the tallies, and the peak. -/
def counters (s : Snapshot) : List Int :=
  [word s.capacity, word s.active,
      (match s.current with
        | some d => (d.code : Int)
        | none => -1),
      word s.waiting.sum]
    ++ s.stats.tallies.map Int.ofNat ++ [word s.stats.peakActive]

/-- The answer to a request for a slot. -/
def admission (noOutput : Bool) : Except Fault Admission → Reply
  | .ok a => ⟨okCode, if noOutput then .nothing else .ticket a.ticket⟩
  | .error fault => ⟨fault.code, .nothing⟩

/-- The answer to a release. -/
def released : Except Fault Unit → Reply
  | .ok () => ⟨okCode, .nothing⟩
  | .error fault => ⟨fault.code, .nothing⟩

/-- A call on a gate whose codes have a meaning.  Nobody answers a caller that sleeps: in a session
with a single caller nobody else is there to wake it. -/
def acquire (g : Gate) (c : Cell) (noOutput : Bool) : Option (Reply × Gate) :=
  match g.arrive c with
  | (.ok (.admitted a), g) => some (admission noOutput (.ok a), g)
  | (.ok (.parked _), _) => none
  | (.error fault, g) => some (admission noOutput (.error fault), g)

/-- A request that waits for a time in which nobody else moves. -/
def acquireWithin (g : Gate) (c : Cell) (time : Span) (noOutput : Bool) : Reply × Gate :=
  match g.arrive c with
  | (.ok (.admitted a), g) => (admission noOutput (.ok a), g)
  | (.ok (.parked t), g) =>
    let (outcome, g) := g.expire t c time
    (admission noOutput outcome, g)
  | (.error fault, g) => (admission noOutput (.error fault), g)

/-- Calls `f` with the cell that two codes mean. -/
def withCell (g : Gate) (direction priority : Nat) (f : Cell → Option (Reply × Gate)) :
    Option (Reply × Gate) :=
  match Cell.ofCodes? direction priority with
  | some c => f c
  | none => some (⟨invalidArgumentCode, .nothing⟩, g)

/-- One call on the gate of a live handle, other than freeing it. -/
def onGate (g : Gate) (noOutput : Bool) : Call → Option (Reply × Gate)
  | .acquire d p => withCell g d p fun c => acquire g c noOutput
  | .tryAcquire d p =>
    withCell g d p fun c =>
      let (outcome, g) := g.tryArrive c
      some (admission noOutput outcome, g)
  | .acquireWithin d p micros =>
    withCell g d p fun c => some (acquireWithin g c (.ofMicros micros) noOutput)
  | .release d p =>
    withCell g d p fun c =>
      let (outcome, g) := g.release c
      some (released outcome, g)
  | .releaseTicket t =>
    let (outcome, g) := g.releaseTicket t
    some (released outcome, g)
  | .stats =>
    if noOutput then some (⟨nullCode, .nothing⟩, g)
    else
      match g.look Bus.snapshot with
      | .ok s => some (⟨okCode, .stats (counters s)⟩, g)
      | .error fault => some (⟨fault.code, .nothing⟩, g)
  | .snapshot =>
    match g.look Bus.snapshot with
    | .ok s => some (⟨okCode, .frame (Frame.encode s)⟩, g)
    | .error fault => some (⟨fault.code, .nothing⟩, g)
  | .free => some (⟨okCode, .nothing⟩, g)

/-- Frees the handle, unless its bus is in use. -/
def free (h : Handle) : Reply × Handle :=
  match h.gate with
  | none => (⟨okCode, .nothing⟩, h)
  | some g =>
    match g.look Bus.isIdle with
    | .ok false => (⟨busyCode, .nothing⟩, h)
    | _ => (⟨okCode, .nothing⟩, ⟨none⟩)

/-- Makes one call. -/
def perform (h : Handle) (i : Invocation) : Option (Reply × Handle) :=
  match i.call, i.onNull, h.gate with
  | .free, true, _ => some (⟨okCode, .nothing⟩, h)
  | .free, false, _ => some h.free
  | _, true, _ => some (⟨nullCode, .nothing⟩, h)
  | _, false, none => some (⟨nullCode, .nothing⟩, h)
  | call, false, some g =>
    (onGate g i.noOutput call).map fun (reply, g) => (reply, ⟨some g⟩)

/-- The number that tells whether a row of bytes, or null, is a frame. -/
def validate : Option (List UInt8) → Int
  | none => nullCode
  | some data => Frame.verdict data

end Handle

end HalfDuplex

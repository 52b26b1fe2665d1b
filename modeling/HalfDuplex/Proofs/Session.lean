import HalfDuplex.Handle
import HalfDuplex.Proofs.Consistent
import HalfDuplex.Proofs.Parking

/-!
# Sessions on a handle

A caller that knows only numbers makes its calls one after the other.  Some of them are turned away
before they come to the bus, and the others should come to exactly what the same request comes to on
the bus itself, with no handle and no gate before it.

* `Handle.play` : the answers to a session.
* `Invocation.errand?` : what a call asks of the bus, if it is not turned away.
* `Bus.fulfil`, `Bus.attain` : what errands come to on the bus itself.
* `Handle.perform_on` : a call on a live handle does what its errand does.
* `Handle.session_refines` : the calls of a session.

With a single caller nobody sleeps at the gate between two calls.  So the handle of a session is a
bus and nothing else (`Handle.on`), and the calls that would sleep for ever are those whose request
is queued.
-/

namespace HalfDuplex

/-- What a call asks of the bus, with its codes read. -/
inductive Errand where
  | acquire (cell : Cell)
  | tryAcquire (cell : Cell)
  | acquireWithin (cell : Cell) (time : Span)
  | release (cell : Cell)
  | releaseTicket (ticket : Ticket)
  | stats
  | snapshot
  | free
  deriving DecidableEq, Repr

/-- The cell in which an errand asks for a slot. -/
def Errand.wanted? : Errand → Option Cell
  | .acquire c | .tryAcquire c | .acquireWithin c _ => some c
  | .release _ | .releaseTicket _ | .stats | .snapshot | .free => none

/-- What a call asks of the bus.  It is turned away if the handle is null, or the place for the
counters, or if a code has no meaning. -/
def Invocation.errand? (i : Invocation) : Option Errand :=
  if i.onNull then none
  else
    match i.call with
    | .acquire d p => (Cell.ofCodes? d p).map .acquire
    | .tryAcquire d p => (Cell.ofCodes? d p).map .tryAcquire
    | .acquireWithin d p micros =>
      (Cell.ofCodes? d p).map fun c => .acquireWithin c (.ofMicros micros)
    | .release d p => (Cell.ofCodes? d p).map .release
    | .releaseTicket t => some (.releaseTicket t)
    | .stats => if i.noOutput then none else some .stats
    | .snapshot => some .snapshot
    | .free => some .free

namespace Bus

/-- What an errand comes to: the ticket of the slot that was asked for, or a fault, and the bus
afterwards.  There is no outcome for a caller that would wait for ever. -/
def fulfil (b : Bus) : Errand → Option (Except Fault (Option Ticket) × Bus)
  | .acquire c =>
    match b.request c with
    | (.admitted t, b) => some (.ok (some t), b)
    | (.queued _, _) => none
  | .tryAcquire c =>
    match b.tryRequest c with
    | (some t, b) => some (.ok (some t), b)
    | (none, b) => some (.error (.wouldBlock c), b)
  | .acquireWithin c time =>
    match b.request c with
    | (.admitted t, b) => some (.ok (some t), b)
    | (.queued t, b) => some (.error (.timedOut c time), (b.withdraw t).2)
  | .release c => some ((b.release c).1.map fun _ => none, (b.release c).2)
  | .releaseTicket t => some ((b.releaseTicket t).1.map fun _ => none, (b.releaseTicket t).2)
  | .stats | .snapshot | .free => some (.ok none, b)

/-- The bus after a list of errands. -/
def attain (b : Bus) : List Errand → Option Bus
  | [] => some b
  | e :: es => (b.fulfil e).bind fun (_, b) => b.attain es

theorem attain_append (b : Bus) (es es' : List Errand) :
    b.attain (es ++ es') = (b.attain es).bind fun b => b.attain es' := by
  induction es generalizing b with
  | nil => rfl
  | cons e es ih =>
    cases hf : b.fulfil e with
    | none => simp [attain, hf]
    | some p => simp [attain, hf, ih]

/-- Somebody holds a slot or waits for one. -/
def InUse (b : Bus) : Prop := b.holders ≠ [] ∨ ∃ c, b.waiting.get c ≠ []

variable {b b' : Bus} {e : Errand} {outcome : Except Fault (Option Ticket)} {t : Ticket} {c : Cell}

theorem mem_holders_of_request {after : Bus} (hr : b.request c = (.admitted t, after)) :
    (t, c) ∈ after.holders := by
  unfold request at hr
  split_ifs at hr
  · cases hr
    exact List.mem_cons_self
  · cases hr

theorem mem_holders_of_tryRequest {after : Bus} (hr : b.tryRequest c = (some t, after)) :
    (t, c) ∈ after.holders := by
  unfold tryRequest at hr
  split_ifs at hr
  · cases hr
    exact List.mem_cons_self
  · cases hr

theorem mem_waiting_of_request {after : Bus} (hr : b.request c = (.queued t, after)) :
    t ∈ after.waiting.get c := by
  unfold request at hr
  split_ifs at hr
  · cases hr
  · cases hr
    simp

/-- An errand is some operations on the bus.  It ends with a fault, with a slot of the cell that was
asked for, or with nothing where no slot was asked for. -/
theorem fulfil_cases (hf : b.fulfil e = some (outcome, b')) :
    (∃ ops, (b.run ops).2 = b') ∧
      ((∃ fault, outcome = .error fault) ∨
        (∃ t c, outcome = .ok (some t) ∧ e.wanted? = some c ∧ (t, c) ∈ b'.holders) ∨
        outcome = .ok none ∧ e.wanted? = none) := by
  cases e with
  | acquire c =>
    simp only [fulfil] at hf
    split at hf
    case h_1 t after hr =>
      cases hf
      exact ⟨⟨[.request c], congrArg Prod.snd hr⟩,
        Or.inr (Or.inl ⟨t, c, rfl, rfl, mem_holders_of_request hr⟩)⟩
    case h_2 => cases hf
  | tryAcquire c =>
    simp only [fulfil] at hf
    split at hf
    case h_1 t after hr =>
      cases hf
      exact ⟨⟨[.tryRequest c], congrArg Prod.snd hr⟩,
        Or.inr (Or.inl ⟨t, c, rfl, rfl, mem_holders_of_tryRequest hr⟩)⟩
    case h_2 hr =>
      cases hf
      exact ⟨⟨[.tryRequest c], congrArg Prod.snd hr⟩, Or.inl ⟨_, rfl⟩⟩
  | acquireWithin c time =>
    simp only [fulfil] at hf
    split at hf
    case h_1 t after hr =>
      cases hf
      exact ⟨⟨[.request c], congrArg Prod.snd hr⟩,
        Or.inr (Or.inl ⟨t, c, rfl, rfl, mem_holders_of_request hr⟩)⟩
    case h_2 t after hr =>
      cases hf
      refine ⟨⟨[.request c, .withdraw t], ?_⟩, Or.inl ⟨_, rfl⟩⟩
      show ((b.request c).2.withdraw t).2 = _
      rw [hr]
  | release c =>
    cases hf
    refine ⟨⟨[.release c], rfl⟩, ?_⟩
    cases (b.release c).1 with
    | error fault => exact Or.inl ⟨fault, rfl⟩
    | ok woken => exact Or.inr (Or.inr ⟨rfl, rfl⟩)
  | releaseTicket t =>
    cases hf
    refine ⟨⟨[.releaseTicket t], rfl⟩, ?_⟩
    cases (b.releaseTicket t).1 with
    | error fault => exact Or.inl ⟨fault, rfl⟩
    | ok woken => exact Or.inr (Or.inr ⟨rfl, rfl⟩)
  | stats | snapshot | free =>
    cases hf
    exact ⟨⟨[], rfl⟩, Or.inr (Or.inr ⟨rfl, rfl⟩)⟩

theorem Reachable.fulfil (h : b.Reachable) (hf : b.fulfil e = some (outcome, b')) :
    b'.Reachable := by
  obtain ⟨⟨ops, rfl⟩, -⟩ := fulfil_cases hf
  exact h.run ops

theorem wanted_of_fulfil (hf : b.fulfil e = some (.ok (some t), b')) :
    ∃ c, e.wanted? = some c ∧ (t, c) ∈ b'.holders := by
  obtain ⟨-, ⟨fault, ⟨⟩⟩ | ⟨u, c, ⟨⟩, hc, hmem⟩ | ⟨⟨⟩, -⟩⟩ := fulfil_cases hf
  exact ⟨c, hc, hmem⟩

theorem ticket_of_fulfil {o : Option Ticket} (hf : b.fulfil e = some (.ok o, b'))
    (hw : e.wanted? = some c) : ∃ t, o = some t := by
  obtain ⟨-, ⟨fault, ⟨⟩⟩ | ⟨t, _, ⟨⟩, -⟩ | ⟨-, hnone⟩⟩ := fulfil_cases hf
  · exact ⟨t, rfl⟩
  · rw [hw] at hnone
    cases hnone

theorem Reachable.isIdle_iff (h : b.Reachable) : b.isIdle = true ↔ ¬ b.InUse := by
  have hactive : b.active = 0 ↔ b.holders = [] := by
    rw [← h.sound.slots.holders_length, List.length_eq_zero_iff]
  simp only [isIdle, InUse, Bool.and_eq_true, decide_eq_true_eq, hactive, totalWaiting_eq_zero,
    not_or, not_not, not_exists]

theorem fulfil_eq_none :
    b.fulfil e = none ↔ ∃ c t, e = .acquire c ∧ (b.request c).1 = .queued t := by
  constructor
  · intro hf
    cases e with
    | acquire c =>
      simp only [fulfil] at hf
      split at hf
      case h_1 => cases hf
      case h_2 t after hr => exact ⟨c, t, rfl, by rw [hr]⟩
    | tryAcquire | acquireWithin =>
      simp only [fulfil] at hf
      split at hf <;> cases hf
    | release | releaseTicket | stats | snapshot | free => cases hf
  · rintro ⟨c, t, rfl, hq⟩
    simp only [fulfil]
    split
    case h_1 hr =>
      rw [hr] at hq
      cases hq
    case h_2 => rfl

end Bus

theorem Fault.code_notMem (fault : Fault) :
    fault.code ∉ [Handle.okCode, Handle.nullCode, Handle.invalidArgumentCode, Handle.busyCode,
      Frame.Defect.malformed.code, Frame.Defect.badMagic.code, Frame.Defect.badVersion.code] := by
  cases fault <;> exact of_decide_eq_true rfl

theorem Fault.code_ne_ok (fault : Fault) : fault.code ≠ Handle.okCode :=
  fun h => fault.code_notMem (h ▸ List.mem_cons_self)

namespace Handle

/-- A live handle at whose gate nobody sleeps. -/
def on (b : Bus) : Handle := ⟨some { bus := b }⟩

/-- The answers to calls made one after the other, and the handle after them.  There are none if
one of the callers sleeps for ever. -/
def play (h : Handle) : List Invocation → Option (List Reply × Handle)
  | [] => some ([], h)
  | i :: is =>
    (h.perform i).bind fun (reply, h) =>
      (h.play is).map fun (replies, h) => (reply :: replies, h)

/-- The answer to a call that is turned away.  Null comes first: nothing is read from a call on it,
and there is nothing to free. -/
def refusal (h : Handle) (i : Invocation) : Reply where
  code :=
    if i.onNull ∨ h.isNull then
      if i.call = .free then okCode else nullCode
    else if i.call = .stats then nullCode
    else invalidArgumentCode

/-- The answer to an errand by number, other than to free the handle. -/
def answer (b : Bus) (noOutput : Bool) (e : Errand) : Except Fault (Option Ticket) → Reply
  | .error fault => ⟨fault.code, .nothing⟩
  | .ok (some t) => ⟨okCode, if noOutput then .nothing else .ticket t⟩
  | .ok none =>
    match e with
    | .stats => ⟨okCode, .stats (counters b.snapshot)⟩
    | .snapshot => ⟨okCode, .frame (Frame.encode b.snapshot)⟩
    | _ => ⟨okCode, .nothing⟩

variable {b : Bus} {h h' : Handle} {i : Invocation} {e : Errand} {is js : List Invocation}
  {replies : List Reply}

/-! ### One call -/

theorem perform_null (hnull : i.onNull = true ∨ h.gate = none) :
    h.perform i = some (⟨if i.call = .free then okCode else nullCode, .nothing⟩, h) := by
  obtain ⟨call, onNull, noOutput⟩ := i
  obtain ⟨gate⟩ := h
  rcases hnull with rfl | rfl
  · cases call <;> rfl
  · cases onNull <;> cases call <;> rfl

theorem answer_code (b : Bus) (noOutput : Bool) (e : Errand)
    (outcome : Except Fault (Option Ticket)) :
    (answer b noOutput e outcome).code =
      match outcome with
      | .ok _ => okCode
      | .error fault => fault.code := by
  cases outcome with
  | error fault => rfl
  | ok o => cases o <;> cases e <;> rfl

theorem answer_ticket {noOutput : Bool} {outcome : Except Fault (Option Ticket)} {t : Ticket} :
    (answer b noOutput e outcome).output = .ticket t ↔
      noOutput = false ∧ outcome = .ok (some t) := by
  cases outcome with
  | error fault => simp [answer]
  | ok o =>
    cases o with
    | some u => cases noOutput <;> simp [answer]
    | none => cases e <;> simp [answer]

/-- A call that is turned away leaves everything as it is. -/
theorem perform_refused (hi : h.isNull = true ∨ i.errand? = none) :
    h.perform i = some (h.refusal i, h) := by
  obtain ⟨gate⟩ := h
  by_cases hnull : i.onNull = true ∨ gate = none
  · have hcond : i.onNull = true ∨ (Handle.mk gate).isNull = true :=
      hnull.imp_right fun hgate => by rw [hgate]; rfl
    rw [perform_null hnull, refusal, if_pos hcond]
  · obtain ⟨hon, hgate⟩ := not_or.1 hnull
    obtain ⟨g, rfl⟩ := Option.ne_none_iff_exists'.1 hgate
    obtain ⟨call, onNull, noOutput⟩ := i
    obtain rfl : onNull = false := Bool.eq_false_iff.2 hon
    have herrand := hi.resolve_left nofun
    simp only [Invocation.errand?, Bool.false_eq_true, if_false] at herrand
    cases call with
    | acquire d p | tryAcquire d p | acquireWithin d p | release d p =>
      have hcodes : Cell.ofCodes? d p = none := by simpa using herrand
      simp [perform, onGate, withCell, hcodes, refusal, isNull]
    | stats =>
      obtain rfl : noOutput = true := by simpa using herrand
      simp [perform, onGate, refusal, isNull]
    | releaseTicket | snapshot | free => cases herrand

theorem settle_on (b : Bus) (r : Except Fault (List Ticket) × Bus) :
    Gate.settle { bus := b } r = (r.1.map fun _ => (), { bus := r.2 }) := by
  obtain ⟨outcome, after⟩ := r
  cases outcome with
  | ok woken => simp [Gate.settle, Gate.withBus, Gate.call, Except.map]
  | error fault => rfl

theorem expire_on {t : Ticket} {c : Cell} (hwaits : t ∈ b.waiting.get c) (hgrant : t ∉ b.granted)
    (time : Span) : Gate.expire { bus := b, parked := [t] } t c time =
      (.error (.timedOut c time), { bus := (b.withdraw t).2 }) := by
  obtain ⟨woken, hremoved⟩ := Bus.withdraw_removed_iff.2 ⟨c, hwaits⟩
  obtain ⟨after, hpair⟩ : ∃ after, b.withdraw t = (.removed woken, after) :=
    ⟨_, Prod.ext hremoved rfl⟩
  simp [Gate.expire, Bus.takeGrant, hgrant, Gate.unpark, hpair, Gate.withBus, Gate.call]

/-- What comes of a request that may wait: it gets a slot at once, or it is queued and nobody is
there to let it in. -/
theorem acquireWithin_on (hb : b.Reachable) (c : Cell) (time : Span) (noOutput : Bool) :
    some (acquireWithin { bus := b } c time noOutput) =
      (b.fulfil (.acquireWithin c time)).map fun (outcome, bus) =>
        (answer b noOutput (.acquireWithin c time) outcome, ({ bus := bus } : Gate)) := by
  cases hr : b.request c with
  | mk request after =>
    cases request with
    | admitted t =>
      simp [acquireWithin, Gate.arrive, hr, Bus.fulfil, answer, admission, Gate.withBus]
    | queued t =>
      have hafter : after.Reachable := by
        have hstep : (b.request c).2.Reachable := hb.step (.request c)
        rwa [hr] at hstep
      have hwaits : t ∈ after.waiting.get c := Bus.mem_waiting_of_request hr
      have hgrant : t ∉ after.granted := hafter.sound.tickets.not_granted hwaits
      simp [acquireWithin, Gate.arrive, hr, Bus.fulfil, answer, admission, Gate.withBus, Gate.park,
        expire_on hwaits hgrant]

/-- A call on a live handle does what its errand does. -/
theorem perform_on (hb : b.Reachable) (he : i.errand? = some e) (hfree : e ≠ .free) :
    (on b).perform i = (b.fulfil e).map fun (outcome, bus) =>
      (answer b i.noOutput e outcome, on bus) := by
  obtain ⟨call, onNull, noOutput⟩ := i
  obtain rfl : onNull = false := by
    rw [Bool.eq_false_iff]
    rintro rfl
    cases he
  simp only [Invocation.errand?, Bool.false_eq_true, if_false] at he
  cases call with
  | acquire d p =>
    obtain ⟨c, hc, rfl⟩ := Option.map_eq_some_iff.1 he
    cases hr : b.request c with
    | mk request after =>
      cases request <;>
        simp [on, perform, onGate, withCell, hc, acquire, Gate.arrive, hr, Bus.fulfil, answer,
          admission, Gate.withBus]
  | tryAcquire d p =>
    obtain ⟨c, hc, rfl⟩ := Option.map_eq_some_iff.1 he
    cases hr : b.tryRequest c with
    | mk request after =>
      cases request <;>
        simp [on, perform, onGate, withCell, hc, Gate.tryArrive, hr, Bus.fulfil, answer,
          admission, Gate.withBus]
  | acquireWithin d p micros =>
    obtain ⟨c, hc, rfl⟩ := Option.map_eq_some_iff.1 he
    have hgate := acquireWithin_on hb c (.ofMicros micros) noOutput
    simp only [on, perform, onGate, withCell, hc, hgate, Option.map_map]
    rfl
  | release d p =>
    obtain ⟨c, hc, rfl⟩ := Option.map_eq_some_iff.1 he
    cases hr : (b.release c).1 <;>
      simp [on, perform, onGate, withCell, hc, Gate.release, settle_on, hr, Bus.fulfil, answer,
        released, Except.map]
  | releaseTicket t =>
    cases he
    cases hr : (b.releaseTicket t).1 <;>
      simp [on, perform, onGate, Gate.releaseTicket, settle_on, hr, Bus.fulfil, answer,
        released, Except.map]
  | stats =>
    obtain ⟨hout, rfl⟩ : noOutput = false ∧ e = .stats := by
      cases noOutput with
      | false => exact ⟨rfl, (Option.some.inj he).symm⟩
      | true => cases he
    subst hout
    rfl
  | snapshot =>
    cases he
    rfl
  | free =>
    cases he
    exact absurd rfl hfree

/-! ### Freeing -/

theorem perform_free (he : i.errand? = some .free) : h.perform i = some h.free := by
  obtain ⟨call, onNull, noOutput⟩ := i
  cases onNull with
  | true => cases he
  | false =>
    simp only [Invocation.errand?, Bool.false_eq_true, if_false] at he
    cases call with
    | acquire | tryAcquire | acquireWithin | release => simp at he
    | releaseTicket | snapshot => cases he
    | stats => cases noOutput <;> cases he
    | free => rfl

/-- A live handle is freed if and only if its bus is not in use, and then the gate may be taken
down.  Other callers may sleep at the gate. -/
theorem free_gate {g : Gate} (hopen : g.poisoned = false) (hb : g.bus.Reachable) :
    (g.bus.InUse → free ⟨some g⟩ = (⟨busyCode, .nothing⟩, ⟨some g⟩)) ∧
      (¬ g.bus.InUse →
        free ⟨some g⟩ = (⟨okCode, .nothing⟩, ⟨none⟩) ∧ g.close = .ok ()) := by
  have hlook : g.look Bus.isIdle = .ok g.bus.isIdle := if_neg (by simp [hopen])
  constructor
  · intro huse
    have hidle : g.bus.isIdle = false :=
      Bool.eq_false_iff.2 fun hidle => hb.isIdle_iff.1 hidle huse
    simp only [free, hlook, hidle]
  · intro huse
    have hidle : g.bus.isIdle = true := hb.isIdle_iff.2 huse
    refine ⟨by simp only [free, hlook, hidle], ?_⟩
    simp [Gate.close, hidle]

/-! ### A session -/

theorem play_append (h : Handle) (is js : List Invocation) :
    h.play (is ++ js) = (h.play is).bind fun (replies, h) =>
      (h.play js).map fun (later, h) => (replies ++ later, h) := by
  induction is generalizing h with
  | nil => simp [play]
  | cons i is ih =>
    cases hp : h.perform i with
    | none => simp [play, hp]
    | some p =>
      simp only [List.cons_append, play, hp, Option.bind_some, ih p.2]
      cases p.2.play is with
      | none => rfl
      | some q => simp [Function.comp_def]

theorem length_play (hplay : h.play is = some (replies, h')) : replies.length = is.length := by
  induction is generalizing h replies with
  | nil =>
    cases hplay
    rfl
  | cons i is ih =>
    obtain ⟨⟨reply, next⟩, -, hrest⟩ := Option.bind_eq_some_iff.1 hplay
    obtain ⟨⟨later, last⟩, hlater, hcons⟩ := Option.map_eq_some_iff.1 hrest
    cases hcons
    rw [List.length_cons, List.length_cons, ih hlater]

/-- To leave out a call that is turned away leaves out its answer and nothing else. -/
theorem play_erase (hplay : h.play is = some (replies, h'))
    (hi : h'.isNull = true ∨ i.errand? = none) (js : List Invocation) :
    h.play (is ++ js) = (h.play (is ++ i :: js)).map fun (replies, last) =>
      (replies.eraseIdx is.length, last) := by
  have hlater : h'.play (i :: js) =
      (h'.play js).map fun (later, last) => (h'.refusal i :: later, last) := by
    rw [play, perform_refused hi]
    rfl
  simp only [play_append, hplay, Option.bind_some, hlater, Option.map_map]
  refine congrArg (fun f => (h'.play js).map f) (funext fun (later, last) => ?_)
  simp [← length_play hplay, List.eraseIdx_append_of_length_le]

theorem play_null (hplay : (Handle.mk none).play is = some (replies, h)) : h = ⟨none⟩ := by
  induction is generalizing replies with
  | nil =>
    cases hplay
    rfl
  | cons i is ih =>
    simp only [play, perform_refused (h := ⟨none⟩) (Or.inl rfl), Option.bind_some] at hplay
    obtain ⟨⟨later, last⟩, hlater, hcons⟩ := Option.map_eq_some_iff.1 hplay
    cases hcons
    exact ih hlater

theorem step_on {reply : Reply} (hb : b.Reachable) (hp : (on b).perform i = some (reply, h)) :
    h = ⟨none⟩ ∨ ∃ b', h = on b' ∧ b'.Reachable ∧ b.attain i.errand?.toList = some b' := by
  cases he : i.errand? with
  | none =>
    rw [perform_refused (Or.inr he)] at hp
    cases hp
    exact Or.inr ⟨b, rfl, hb, rfl⟩
  | some e =>
    by_cases hfree : e = .free
    · subst hfree
      rw [perform_free he] at hp
      obtain ⟨hbusy, hidle⟩ := free_gate (g := { bus := b }) rfl hb
      by_cases huse : b.InUse
      · rw [on, hbusy huse] at hp
        cases hp
        exact Or.inr ⟨b, rfl, hb, rfl⟩
      · rw [on, (hidle huse).1] at hp
        cases hp
        exact Or.inl rfl
    · rw [perform_on hb he hfree] at hp
      obtain ⟨⟨outcome, after⟩, hf, heq⟩ := Option.map_eq_some_iff.1 hp
      cases heq
      refine Or.inr ⟨after, rfl, hb.fulfil hf, ?_⟩
      simp [Bus.attain, hf]

/-- The handle after a session was freed in it, or shows the bus that the errands of the session
lead to. -/
theorem play_on (hb : b.Reachable) (hplay : (on b).play is = some (replies, h)) :
    h = ⟨none⟩ ∨
      ∃ b', h = on b' ∧ b'.Reachable ∧
        b.attain (is.filterMap Invocation.errand?) = some b' := by
  induction is generalizing b replies with
  | nil =>
    cases hplay
    exact Or.inr ⟨b, rfl, hb, rfl⟩
  | cons i is ih =>
    obtain ⟨⟨reply, next⟩, hp, hrest⟩ := Option.bind_eq_some_iff.1 hplay
    obtain ⟨⟨later, last⟩, hlater, hcons⟩ := Option.map_eq_some_iff.1 hrest
    cases hcons
    rcases step_on hb hp with rfl | ⟨b', rfl, hb', hattain⟩
    · exact Or.inl (play_null hlater)
    · have hcons : (i :: is).filterMap Invocation.errand? =
          i.errand?.toList ++ is.filterMap Invocation.errand? := by
        cases he : i.errand? <;> simp [he]
      rw [hcons, Bus.attain_append, hattain]
      exact ih hb' hlater

theorem build_cases (n : NumericConfig) :
    build n = ⟨none⟩ ∨ ∃ config, n.config? = some config ∧ config.valid = true ∧
      build n = on (.new config) := by
  cases hc : n.config? with
  | none => exact Or.inl (by rw [build, hc]; rfl)
  | some config =>
    by_cases hvalid : config.valid = true
    · refine Or.inr ⟨config, rfl, hvalid, ?_⟩
      simp [build, hc, Gate.build, Bus.build, hvalid, Except.map, Except.toOption, on]
    · left
      simp [build, hc, Gate.build, Bus.build, hvalid, Except.map, Except.toOption]

/-- A session leaves a handle that is null or shows the bus that its errands lead to. -/
theorem play_build {n : NumericConfig} (hplay : (build n).play is = some (replies, h)) :
    h = ⟨none⟩ ∨ ∃ b, h = on b ∧ b.Reachable ∧ ∃ config, n.config? = some config ∧
      config.valid = true ∧
        (Bus.new config).attain (is.filterMap Invocation.errand?) = some b := by
  rcases build_cases n with hnone | ⟨config, hconfig, hvalid, hlive⟩
  · rw [hnone] at hplay
    exact Or.inl (play_null hplay)
  · rw [hlive] at hplay
    rcases play_on (Bus.reachable_new hvalid) hplay with hnone | ⟨b, hb, hreach, hattain⟩
    · exact Or.inl hnone
    · exact Or.inr ⟨b, hb, hreach, config, hconfig, hvalid, hattain⟩

theorem exists_ticket_iff {b' : Bus} {noOutput : Bool} {outcome : Except Fault (Option Ticket)}
    (hf : b.fulfil e = some (outcome, b')) :
    (∃ t, (answer b noOutput e outcome).output = .ticket t) ↔
      e.wanted?.isSome ∧ (answer b noOutput e outcome).code = okCode ∧ noOutput = false := by
  constructor
  · rintro ⟨t, ht⟩
    obtain ⟨hout, rfl⟩ := answer_ticket.1 ht
    obtain ⟨c, hc, -⟩ := Bus.wanted_of_fulfil hf
    exact ⟨by rw [hc]; rfl, answer_code .., hout⟩
  · rintro ⟨hwanted, hok, hout⟩
    obtain ⟨c, hc⟩ := Option.isSome_iff_exists.1 hwanted
    rw [answer_code] at hok
    cases outcome with
    | error fault => exact absurd hok fault.code_ne_ok
    | ok o =>
      obtain ⟨t, rfl⟩ := Bus.ticket_of_fulfil hf hc
      exact ⟨t, answer_ticket.2 ⟨hout, rfl⟩⟩

/-- **A session on a handle comes to what its errands come to on the bus.**  A call that is turned
away changes nothing and may be left out: all others are answered as before.  Any other call does
what its errand does on the bus that the errands before it lead to, answers with zero or with the
number of the fault, and writes a ticket just where it got a slot and was given a place for it.  A
caller sleeps for ever only where it asks for a slot without a limit and its request is queued.  A
live handle is freed unless its bus is in use, and the gate may be taken down then. -/
theorem session_refines (n : NumericConfig) {before : List Invocation} {earlier : List Reply}
    {h : Handle} (hplay : (build n).play before = some (earlier, h)) (i : Invocation) :
    (h = ⟨none⟩ ∨ ∃ b, h = on b) ∧
      (h = ⟨none⟩ ∨ i.errand? = none →
        h.perform i = some (h.refusal i, h) ∧
          ∀ after, (build n).play (before ++ after) =
            ((build n).play (before ++ i :: after)).map fun (replies, last) =>
              (replies.eraseIdx before.length, last)) ∧
      (∀ b e, h = on b → i.errand? = some e →
        (∃ config, n.config? = some config ∧ config.valid = true ∧
          (Bus.new config).attain (before.filterMap Invocation.errand?) = some b) ∧
        (e ≠ .free →
          (h.perform i = none ↔ ∃ c t, e = .acquire c ∧ (b.request c).1 = .queued t) ∧
          ∀ reply next, h.perform i = some (reply, next) →
            ∃ outcome b', b.fulfil e = some (outcome, b') ∧ next = on b' ∧
              (reply.code = match outcome with
                | .ok _ => okCode
                | .error fault => fault.code) ∧
              ((∃ t, reply.output = .ticket t) ↔
                e.wanted?.isSome ∧ reply.code = okCode ∧ i.noOutput = false) ∧
              ∀ t, reply.output = .ticket t →
                outcome = .ok (some t) ∧ ∃ c, e.wanted? = some c ∧ (t, c) ∈ b'.holders) ∧
        (e = .free →
          (b.InUse → h.perform i = some (⟨busyCode, .nothing⟩, h)) ∧
          (¬ b.InUse → h.perform i = some (⟨okCode, .nothing⟩, ⟨none⟩) ∧
            Gate.close { bus := b } = .ok ()))) ∧
      ∀ g : Gate, g.Tidy →
        (g.bus.InUse → free ⟨some g⟩ = (⟨busyCode, .nothing⟩, ⟨some g⟩)) ∧
        (¬ g.bus.InUse → free ⟨some g⟩ = (⟨okCode, .nothing⟩, ⟨none⟩) ∧ g.close = .ok ()) := by
  have hstart := play_build hplay
  refine ⟨?_, ?_, ?_, fun g hg => free_gate hg.sane hg.reachable⟩
  · exact hstart.imp_right fun ⟨b, hb, _⟩ => ⟨b, hb⟩
  · intro hi
    have hrefused : h.isNull = true ∨ i.errand? = none := hi.imp_left fun hnone => by
      rw [hnone]
      rfl
    exact ⟨perform_refused hrefused, play_erase hplay hrefused⟩
  · intro b e hb he
    obtain ⟨b', hb', hreach, hconfig⟩ := hstart.resolve_left (by rw [hb]; exact nofun)
    obtain rfl : b = b' := by
      cases hb.symm.trans hb'
      rfl
    subst hb
    refine ⟨hconfig, ?_, ?_⟩
    · intro hfree
      rw [perform_on hreach he hfree]
      refine ⟨by rw [Option.map_eq_none_iff, Bus.fulfil_eq_none], ?_⟩
      intro reply next hp
      obtain ⟨⟨outcome, after⟩, hf, heq⟩ := Option.map_eq_some_iff.1 hp
      cases heq
      refine ⟨outcome, after, hf, rfl, answer_code .., exists_ticket_iff hf, ?_⟩
      intro t ht
      obtain ⟨-, rfl⟩ := answer_ticket.1 ht
      exact ⟨rfl, Bus.wanted_of_fulfil hf⟩
    · rintro rfl
      obtain ⟨hbusy, hidle⟩ := free_gate (g := { bus := b }) rfl hreach
      rw [perform_free he]
      exact ⟨fun huse => congrArg some (hbusy huse),
        fun huse => ⟨congrArg some (hidle huse).1, (hidle huse).2⟩⟩

/-- A bus with one slot.  The counters have no place to go, a direction has no meaning, a caller
waits in vain, and the slot is still held at the end. -/
theorem session_refines_one_slot :
    let n : NumericConfig := ⟨1, 0, 0, 1⟩
    let before : List Invocation := [⟨.acquire 0 0, false, false⟩, ⟨.tryAcquire 1 0, false, false⟩,
      ⟨.tryAcquire 2 0, false, false⟩, ⟨.stats, false, true⟩, ⟨.stats, true, false⟩,
      ⟨.acquireWithin 1 1 500, false, false⟩]
    ∃ b, (build n).play before = some ([⟨0, .ticket 0⟩, ⟨-5, .nothing⟩, ⟨-2, .nothing⟩,
        ⟨-1, .nothing⟩, ⟨-1, .nothing⟩, ⟨-6, .nothing⟩], on b) ∧
      (on b).perform ⟨.free, false, false⟩ = some (⟨-11, .nothing⟩, on b) ∧
      ∀ after, (build n).play (before ++ after) =
        ((build n).play (before ++ ⟨.release 0 9, false, false⟩ :: after)).map
          fun (replies, last) => (replies.eraseIdx 6, last) := by
  intro n before
  refine ⟨_, rfl, ?_, ?_⟩
  · have hfree := ((@session_refines n before _ _ rfl ⟨.free, false, false⟩).2.2.1
      _ .free rfl rfl).2.2 rfl
    exact hfree.1 (Or.inl nofun)
  · exact ((@session_refines n before _ _ rfl ⟨.release 0 9, false, false⟩).2.1
      (Or.inr rfl)).2

end Handle

end HalfDuplex

import HalfDuplex.Proofs.Accounting

/-!
# A bus in machine words

The counts of a bus are natural numbers here, and its operations do what they do without asking
whether they may.  In this module every operation is performed once more with its guards: a sum has
to be a machine word, a difference must not fall below zero, a slot is only given away where one is
free and in the running direction, and a direction is only chosen for the empty bus.

* `Alarm` : what a guard can find.
* `Guard.step`, `Guard.run` : the operations and the runs of a bus with their guards.
* `Bus.Fits` : all counts of a bus are machine words.
* `Bus.Moment.Safe` : the move of this moment is legal, and the bus fits after it.
* `Guard.step_eq`, `Guard.run_eq` : at safe moments no guard finds anything, and the guarded
  operation is the operation.

The peak has no guard: it is the larger of two counts and never their sum.
-/

namespace HalfDuplex

/-- What can go wrong on a bus whose counts are machine words. -/
inductive Alarm where
  /-- A sum is no machine word. -/
  | overflow
  /-- A difference is below zero. -/
  | underflow
  /-- A slot is given away and none is free. -/
  | noRoom
  /-- A slot is given away against the running direction. -/
  | wrongWay
  /-- A direction is chosen for a bus with held slots. -/
  | notEmpty
  deriving DecidableEq, Repr

namespace Guard

/-! ### The guards -/

/-- A condition that has to hold. -/
def require (p : Prop) [Decidable p] (alarm : Alarm) : Except Alarm Unit :=
  if p then .ok () else .error alarm

/-- One more, if that is at most `limit`. -/
def succ (limit n : Nat) : Except Alarm Nat :=
  if n + 1 ≤ limit then .ok (n + 1) else .error .overflow

/-- One less, if there is one. -/
def pred (n : Nat) : Except Alarm Nat := if 1 ≤ n then .ok (n - 1) else .error .underflow

/-- One more of what is counted by 64-bit words. -/
def count (n : Nat) : Except Alarm Nat := succ Word.max64 n

/-- One more of what is counted by 64-bit words, if it happened. -/
def countIf (p : Prop) [Decidable p] (n : Nat) : Except Alarm Nat := if p then count n else .ok n

/-! ### Steps of an admission

From here on, every definition repeats a step of the operations of a bus, in the same order and
with its guards. -/

def issue (b : Bus) : Except Alarm Bus := do
  let next ← count b.nextTicket
  return { b with nextTicket := next }

/-- The streak is counted by 32-bit words. -/
def nextStreak (b : Bus) (d : Direction) (why : Option Reason) : Except Alarm Nat :=
  if why = some .elevated then
    if b.lastServed = some d then succ Word.max32 b.streak else .ok 1
  else .ok 0

def beginCycle (b : Bus) (d : Direction) (why : Option Reason) : Except Alarm Bus := do
  let streak ← nextStreak b d why
  let switches ← countIf (b.lastServed = some d.opposite) b.stats.switches
  let cycles ← count b.stats.cycles
  return { b with
    streak := streak
    lastServed := some d
    stats := { b.stats with cycles := cycles, switches := switches } }

/-- An admission to the empty bus begins a cycle. -/
def beginIfEmpty (b : Bus) (d : Direction) (why : Option Reason) : Except Alarm Bus :=
  if b.active = 0 then beginCycle b d why else .ok b

def countAdmission (s : Stats) (c : Cell) (active : Nat) : Except Alarm Stats := do
  let admissions ← count s.admissions
  let outbound ← countIf (c.direction = .outbound) s.outbound
  let inbound ← countIf (c.direction = .inbound) s.inbound
  let elevated ← countIf (c.priority = .elevated) s.elevated
  let normal ← countIf (c.priority = .normal) s.normal
  return { s with
    admissions := admissions
    peakActive := max s.peakActive active
    outbound := outbound
    inbound := inbound
    elevated := elevated
    normal := normal }

def occupy (b : Bus) (t : Ticket) (c : Cell) (why : Option Reason) : Except Alarm Bus := do
  require (b.active < b.config.capacity) .noRoom
  require (b.current = none ∨ b.current = some c.direction) .wrongWay
  let b ← beginIfEmpty b c.direction why
  let active ← count b.active
  let held ← count (b.held.get c)
  let stats ← countAdmission b.stats c active
  return { b with
    active := active
    current := some c.direction
    held := b.held.set c held
    holders := (t, c) :: b.holders
    stats := stats }

def countImmediate (b : Bus) : Except Alarm Bus := do
  let immediate ← count b.stats.immediate
  return { b with stats := { b.stats with immediate := immediate } }

def grant (b : Bus) (t : Ticket) : Except Alarm Bus := do
  let queued ← count b.stats.queued
  return { b with granted := t :: b.granted, stats := { b.stats with queued := queued } }

/-! ### Serving the queues -/

/-- A ticket that has been taken from its queue gets a slot and a grant. -/
def board (b : Bus) (t : Ticket) (c : Cell) (why : Option Reason) : Except Alarm Bus := do
  let occupied ← occupy b t c why
  grant occupied t

def serve (d : Direction) (why : Option Reason) : Nat → Bus → Except Alarm (List Ticket × Bus)
  | 0, b => .ok ([], b)
  | room + 1, b =>
    match b.popWaiter? d with
    | none => .ok ([], b)
    | some (t, c, left) => do
      let boarded ← board left t c why
      let (woken, after) ← serve d why room boarded
      return (t :: woken, after)

def dispatch (b : Bus) : Except Alarm (List Ticket × Bus) :=
  match b.current with
  | some d =>
    if b.yields d then .ok ([], b) else serve d none (b.config.capacity - b.active) b
  | none => do
    require (b.active = 0) .notEmpty
    match b.nextTurn with
    | none => return ([], b)
    | some (d, why) => serve d (some why) (b.config.capacity - b.active) b

/-! ### The operations -/

/-- The next ticket takes a slot of cell `c` on arrival. -/
def arrive (b : Bus) (c : Cell) : Except Alarm Bus := do
  let issued ← issue b
  let occupied ← occupy issued b.nextTicket c none
  countImmediate occupied

def request (b : Bus) (c : Cell) : Except Alarm (Request × Bus) :=
  if b.accepts c then do
    let after ← arrive b c
    return (.admitted b.nextTicket, after)
  else do
    let issued ← issue b
    return (.queued b.nextTicket,
      { issued with waiting := b.waiting.set c (b.waiting.get c ++ [b.nextTicket]) })

def tryRequest (b : Bus) (c : Cell) : Except Alarm (Option Ticket × Bus) :=
  if b.accepts c then do
    let after ← arrive b c
    return (some b.nextTicket, after)
  else .ok (none, b)

def countRejected (b : Bus) : Except Alarm Bus := do
  let rejected ← count b.stats.rejectedReleases
  return { b with stats := { b.stats with rejectedReleases := rejected } }

def vacate (b : Bus) (t : Ticket) (c : Cell) : Except Alarm Bus := do
  let held ← pred (b.held.get c)
  let active ← pred b.active
  return { b with
    active := active
    current := if active = 0 then none else b.current
    held := b.held.set c held
    holders := b.holders.filter fun h => h.1 ≠ t }

/-- Ticket `t` gives back its slot in cell `c`, and whoever may go is let in. -/
def giveBack (b : Bus) (t : Ticket) (c : Cell) : Except Alarm (Answer × Bus) := do
  let vacated ← vacate b t c
  let (woken, after) ← dispatch vacated
  return (.released woken, after)

/-- A release is refused. -/
def refuse (b : Bus) (fault : Fault) : Except Alarm (Answer × Bus) := do
  let after ← countRejected b
  return (.refused fault, after)

def unqueue (b : Bus) (t : Ticket) (c : Cell) : Except Alarm Bus := do
  let withdrawn ← count b.stats.withdrawn
  return { b with
    waiting := b.waiting.set c ((b.waiting.get c).erase t)
    stats := { b.stats with withdrawn := withdrawn } }

/-- One operation with its guards. -/
def step (b : Bus) : Op → Except Alarm (Answer × Bus)
  | .request c => do
    let (answer, after) ← request b c
    return (.request answer, after)
  | .tryRequest c => do
    let (answer, after) ← tryRequest b c
    return (.tryRequest answer, after)
  | .takeGrant t => .ok (.takeGrant (b.takeGrant t).1, (b.takeGrant t).2)
  | .release c =>
    match b.oldestHolder? c with
    | none => refuse b (.unmatchedRelease c)
    | some t => giveBack b t c
  | .releaseTicket t =>
    match b.cellOf? t with
    | none => refuse b (.staleTicket t)
    | some c => giveBack b t c
  | .withdraw t =>
    match b.queueOf? t with
    | some c => do
      let unqueued ← unqueue b t c
      let (woken, after) ← dispatch unqueued
      return (.withdraw (.removed woken), after)
    | none => .ok (.withdraw (if t ∈ b.granted then .alreadyAdmitted else .unknown), b)

/-- The operations of a list with their guards; the first alarm ends the run. -/
def run (b : Bus) : List Op → Except Alarm (List Answer × Bus)
  | [] => .ok ([], b)
  | op :: ops => do
    let first ← step b op
    let rest ← run first.2 ops
    return (first.1 :: rest.1, rest.2)

end Guard

namespace Bus

/-- All counts of a bus are machine words. -/
structure Fits (b : Bus) : Prop where
  nextTicket : b.nextTicket ≤ Word.max64
  active : b.active ≤ Word.max64
  held : ∀ c, b.held.get c ≤ Word.max64
  /-- The streak is counted by 32-bit words. -/
  streak : b.streak ≤ Word.max32
  tallies : ∀ n ∈ b.stats.tallies, n ≤ Word.max64

/-- The move of this moment is a legal one of a sound bus, and the bus fits after it. -/
structure Moment.Safe (m : Moment) : Prop where
  legal : m.Legal
  sound : m.bus.Sound
  fits : m.after.Fits

variable {b : Bus} {t : Ticket} {c : Cell}

theorem Fits.of_countImmediate (h : b.countImmediate.Fits) : b.Fits := by
  refine ⟨h.nextTicket, h.active, h.held, h.streak, ?_⟩
  have htallies := h.tallies
  simp only [countImmediate, Stats.tallies, List.forall_mem_cons] at htallies ⊢
  obtain ⟨h1, h2, hrest⟩ := htallies
  exact ⟨h1, Nat.le_of_succ_le h2, hrest⟩

theorem Fits.of_grant (h : (b.grant t).Fits) : b.Fits := by
  refine ⟨h.nextTicket, h.active, h.held, h.streak, ?_⟩
  have htallies := h.tallies
  simp only [grant, Stats.tallies, List.forall_mem_cons] at htallies ⊢
  obtain ⟨h1, h2, h3, hrest⟩ := htallies
  exact ⟨h1, h2, Nat.le_of_succ_le h3, hrest⟩

theorem Moment.Safe.way {m : Move} (h : Moment.Safe ⟨b, m⟩) (ha : m.admitted? = some (t, c)) :
    b.active < b.config.capacity ∧ (b.current = none ∨ b.current = some c.direction) := by
  obtain ⟨hroom, hway⟩ := h.sound.slots.room_of_admitted h.legal ha
  exact ⟨hroom, hway.imp_left h.sound.slots.current_eq_none.2⟩

end Bus

namespace Guard

variable {b : Bus} {t : Ticket} {c : Cell} {d : Direction} {why : Option Reason}

/-! ### Guards that find nothing -/

theorem ok_bind {α β : Type} (a : α) (f : α → Except Alarm β) : (Except.ok a >>= f) = f a := rfl

theorem require_eq {p : Prop} [Decidable p] {alarm : Alarm} (h : p) :
    require p alarm = .ok () := if_pos h

theorem succ_eq {limit n : Nat} (h : n + 1 ≤ limit) : succ limit n = .ok (n + 1) := if_pos h

theorem pred_eq {n : Nat} (h : 1 ≤ n) : pred n = .ok (n - 1) := if_pos h

theorem count_eq {n : Nat} (h : n + 1 ≤ Word.max64) : count n = .ok (n + 1) := succ_eq h

theorem countIf_eq {p : Prop} [Decidable p] {n : Nat}
    (h : n + (if p then 1 else 0) ≤ Word.max64) : countIf p n = .ok (n + if p then 1 else 0) := by
  unfold countIf
  split_ifs at h ⊢
  · exact count_eq h
  · rfl

/-! ### Each step with its guards -/

theorem issue_eq (h : b.issued.nextTicket ≤ Word.max64) : issue b = .ok b.issued := by
  rw [issue, count_eq h]
  rfl

theorem nextStreak_eq (h : (b.beginCycle d why).streak ≤ Word.max32) :
    nextStreak b d why = .ok (b.beginCycle d why).streak := by
  simp only [nextStreak, Bus.beginCycle] at h ⊢
  split_ifs at h ⊢
  · exact succ_eq h
  · rfl
  · rfl

theorem beginCycle_eq (hstreak : (b.beginCycle d why).streak ≤ Word.max32)
    (hcycles : (b.beginCycle d why).stats.cycles ≤ Word.max64)
    (hswitches : (b.beginCycle d why).stats.switches ≤ Word.max64) :
    beginCycle b d why = .ok (b.beginCycle d why) := by
  rw [beginCycle, nextStreak_eq hstreak, countIf_eq hswitches, count_eq hcycles]
  rfl

theorem countAdmission_eq {s : Stats} {active : Nat}
    (h : ∀ n ∈ (s.countAdmission c active).tallies, n ≤ Word.max64) :
    countAdmission s c active = .ok (s.countAdmission c active) := by
  simp only [Stats.countAdmission, Stats.tallies, List.forall_mem_cons] at h
  obtain ⟨hadmissions, -, -, houtbound, hinbound, helevated, hnormal, -⟩ := h
  rw [countAdmission, count_eq hadmissions, countIf_eq houtbound, countIf_eq hinbound,
    countIf_eq helevated, countIf_eq hnormal]
  rfl

theorem beginIfEmpty_eq (hfits : (b.occupy t c why).Fits) :
    beginIfEmpty b c.direction why =
      .ok (if b.active = 0 then b.beginCycle c.direction why else b) := by
  unfold beginIfEmpty
  by_cases h0 : b.active = 0
  · have hstreak := hfits.streak
    have htallies := hfits.tallies
    simp only [Bus.occupy, if_pos h0, Stats.countAdmission, Stats.tallies,
      List.forall_mem_cons] at hstreak htallies
    obtain ⟨-, -, -, -, -, -, -, hcycles, hswitches, -⟩ := htallies
    rw [if_pos h0, if_pos h0]
    exact beginCycle_eq hstreak hcycles hswitches
  · rw [if_neg h0, if_neg h0]

/-- Taking a slot raises no alarm where there is room, in the running direction, if the bus fits
afterwards. -/
theorem occupy_eq (hroom : b.active < b.config.capacity)
    (hway : b.current = none ∨ b.current = some c.direction) (hfits : (b.occupy t c why).Fits) :
    occupy b t c why = .ok (b.occupy t c why) := by
  have hcycle := beginIfEmpty_eq hfits
  have hactive := hfits.active
  have hheld := hfits.held c
  have hstats := hfits.tallies
  rw [occupy, require_eq hroom, require_eq hway, hcycle]
  unfold Bus.occupy at hactive hheld hstats ⊢
  generalize (if b.active = 0 then b.beginCycle c.direction why else b) = b' at *
  rw [PerCell.get_set, if_pos rfl] at hheld
  simp only [ok_bind]
  rw [count_eq hactive, ok_bind, count_eq hheld, ok_bind, countAdmission_eq hstats]
  rfl

theorem countImmediate_eq (h : b.countImmediate.Fits) :
    countImmediate b = .ok b.countImmediate := by
  have htallies := h.tallies
  simp only [Bus.countImmediate, Stats.tallies, List.forall_mem_cons] at htallies
  rw [countImmediate, count_eq htallies.2.1]
  rfl

theorem grant_eq (h : (b.grant t).Fits) : grant b t = .ok (b.grant t) := by
  have htallies := h.tallies
  simp only [Bus.grant, Stats.tallies, List.forall_mem_cons] at htallies
  rw [grant, count_eq htallies.2.2.1]
  rfl

/-! ### Each move with its guards -/

theorem arrive_eq (h : Bus.Moment.Safe ⟨b, .arrive b.nextTicket c⟩) :
    arrive b c = .ok (b.perform (.arrive b.nextTicket c)) := by
  obtain ⟨hroom, hway⟩ := h.way rfl
  have hafter : (b.issued.occupy b.nextTicket c none).countImmediate.Fits := h.fits
  have hnumber := h.fits.of_countImmediate.nextTicket
  rw [Bus.occupy_nextTicket] at hnumber
  have hslot := occupy_eq (b := b.issued) hroom hway hafter.of_countImmediate
  rw [arrive, issue_eq hnumber, ok_bind, hslot, ok_bind]
  exact countImmediate_eq hafter

theorem enqueue_eq (h : Bus.Moment.Safe ⟨b, .enqueue t c⟩) : issue b = .ok b.issued :=
  issue_eq h.fits.nextTicket

theorem board_eq (h : Bus.Moment.Safe ⟨b, .board t c why⟩) :
    board { b with waiting := b.waiting.set c (b.waiting.get c).tail } t c why =
      .ok (b.perform (.board t c why)) := by
  obtain ⟨hroom, hway⟩ := h.way rfl
  have hafter : ((Bus.occupy { b with waiting := b.waiting.set c (b.waiting.get c).tail }
    t c why).grant t).Fits := h.fits
  have hslot := occupy_eq (b := { b with waiting := b.waiting.set c (b.waiting.get c).tail })
    hroom hway hafter.of_grant
  rw [board, hslot, ok_bind]
  exact grant_eq hafter

theorem vacate_eq (h : Bus.Moment.Safe ⟨b, .vacate t c⟩) :
    vacate b t c = .ok (b.perform (.vacate t c)) := by
  obtain ⟨-, hmem⟩ : b.Settled ∧ (t, c) ∈ b.holders := by
    cases h.legal with
    | vacate hs hmem => exact ⟨hs, hmem⟩
  have hslots := h.sound.slots
  have hactive : 1 ≤ b.active := hslots.holders_length ▸ List.length_pos_of_mem hmem
  have hheld : 1 ≤ b.held.get c := by
    rw [hslots.held_eq]
    exact List.countP_pos_iff.2 ⟨(t, c), hmem, decide_eq_true rfl⟩
  rw [vacate, pred_eq hheld, ok_bind, pred_eq hactive]
  rfl

theorem unqueue_eq (h : Bus.Moment.Safe ⟨b, .leave t c⟩) :
    unqueue b t c = .ok (b.perform (.leave t c)) := by
  have htallies := h.fits.tallies
  simp only [Bus.Moment.after, Bus.perform, Bus.unqueued, Stats.tallies,
    List.forall_mem_cons] at htallies
  obtain ⟨-, -, -, -, -, -, -, -, -, hwithdrawn, -⟩ := htallies
  rw [unqueue, count_eq hwithdrawn]
  rfl

theorem refuse_eq (h : Bus.Moment.Safe ⟨b, .refuse⟩) (fault : Fault) :
    refuse b fault = .ok (.refused fault, b.perform .refuse) := by
  have htallies := h.fits.tallies
  simp only [Bus.Moment.after, Bus.perform, Bus.countRejected, Stats.tallies,
    List.forall_mem_cons] at htallies
  obtain ⟨-, -, -, -, -, -, -, -, -, -, hrejected, -⟩ := htallies
  rw [refuse, countRejected, count_eq hrejected]
  rfl

/-! ### Serving the queues with guards -/

theorem serve_eq {room : Nat} (h : ∀ m ∈ b.moments (Bus.serveMoves d why room b), m.Safe) :
    serve d why room b = .ok (Bus.serve d why room b) := by
  induction room generalizing b with
  | zero => rfl
  | succ room ih =>
    cases hp : b.popWaiter? d with
    | none => simp only [serve, Bus.serve, hp]
    | some next =>
      obtain ⟨t, c, b'⟩ := next
      simp only [Bus.serveMoves, hp, Bus.moments_cons, List.forall_mem_cons] at h
      obtain ⟨hfirst, hrest⟩ := h
      obtain ⟨-, -, rfl⟩ := Bus.popWaiter?_eq_some hp
      simp only [serve, Bus.serve, hp]
      rw [board_eq hfirst, ok_bind, ih hrest]
      rfl

/-- Letting in whoever may go raises no alarm on a sound bus. -/
theorem dispatch_eq (hsound : b.Sound) (h : ∀ m ∈ b.moments b.dispatchMoves, m.Safe) :
    dispatch b = .ok b.dispatch := by
  cases hc : b.current with
  | some d =>
    cases hy : b.yields d with
    | true => simp only [dispatch, Bus.dispatch, hc, hy, ↓reduceIte]
    | false =>
      simp only [Bus.dispatchMoves, hc, hy, Bool.false_eq_true, ↓reduceIte] at h
      simp only [dispatch, Bus.dispatch, hc, hy, Bool.false_eq_true, ↓reduceIte]
      exact serve_eq h
  | none =>
    have h0 : b.active = 0 := hsound.slots.current_eq_none.1 hc
    cases hn : b.nextTurn with
    | none =>
      simp only [dispatch, Bus.dispatch, hc, hn]
      rw [require_eq h0]
      rfl
    | some turn =>
      simp only [Bus.dispatchMoves, hc, hn] at h
      simp only [dispatch, Bus.dispatch, hc, hn]
      rw [require_eq h0, ok_bind]
      exact serve_eq h

/-! ### Operations and runs -/

theorem giveBack_eq
    (h : ∀ m ∈ b.moments (.vacate t c :: (b.perform (.vacate t c)).dispatchMoves), m.Safe) :
    giveBack b t c = .ok (.released (b.vacated t c).dispatch.1, (b.vacated t c).dispatch.2) := by
  rw [Bus.moments_cons, List.forall_mem_cons] at h
  obtain ⟨hfirst, hrest⟩ := h
  rw [giveBack, vacate_eq hfirst, ok_bind, dispatch_eq (hfirst.sound.perform hfirst.legal) hrest]
  rfl

/-- **At safe moments an operation raises no alarm**, and with its guards it is the operation. -/
theorem step_eq {op : Op} (h : ∀ m ∈ b.moments (b.moves op), m.Safe) :
    step b op = .ok (b.step op) := by
  cases op with
  | request c =>
    cases hacc : b.accepts c with
    | true =>
      simp only [Bus.moves, hacc, ↓reduceIte] at h
      simp only [step, request, Bus.step, Bus.request, hacc, ↓reduceIte]
      rw [arrive_eq (h _ List.mem_cons_self)]
      rfl
    | false =>
      simp only [Bus.moves, hacc, Bool.false_eq_true, ↓reduceIte] at h
      simp only [step, request, Bus.step, Bus.request, hacc, Bool.false_eq_true, ↓reduceIte]
      rw [enqueue_eq (h _ List.mem_cons_self)]
      rfl
  | tryRequest c =>
    cases hacc : b.accepts c with
    | true =>
      simp only [Bus.moves, hacc, ↓reduceIte] at h
      simp only [step, tryRequest, Bus.step, Bus.tryRequest, hacc, ↓reduceIte]
      rw [arrive_eq (h _ List.mem_cons_self)]
      rfl
    | false =>
      simp only [step, tryRequest, Bus.step, Bus.tryRequest, hacc, Bool.false_eq_true, ↓reduceIte]
      rfl
  | takeGrant t => rfl
  | release c =>
    cases ho : b.oldestHolder? c with
    | none =>
      simp only [Bus.moves, ho] at h
      simp only [step, Bus.step, Bus.release, ho]
      exact refuse_eq (h _ List.mem_cons_self) _
    | some t =>
      simp only [Bus.moves, ho] at h
      simp only [step, Bus.step, Bus.release, ho]
      exact giveBack_eq h
  | releaseTicket t =>
    cases ho : b.cellOf? t with
    | none =>
      simp only [Bus.moves, ho] at h
      simp only [step, Bus.step, Bus.releaseTicket, ho]
      exact refuse_eq (h _ List.mem_cons_self) _
    | some c =>
      simp only [Bus.moves, ho] at h
      simp only [step, Bus.step, Bus.releaseTicket, ho]
      exact giveBack_eq h
  | withdraw t =>
    cases ho : b.queueOf? t with
    | none => simp only [step, Bus.step, Bus.withdraw, ho]
    | some c =>
      simp only [Bus.moves, ho, Bus.moments_cons, List.forall_mem_cons] at h
      obtain ⟨hfirst, hrest⟩ := h
      simp only [step, Bus.step, Bus.withdraw, ho]
      rw [unqueue_eq hfirst, ok_bind, dispatch_eq (hfirst.sound.perform hfirst.legal) hrest]
      rfl

/-- **A run all of whose moments are safe raises no alarm**, and with its guards it is the run. -/
theorem run_eq {ops : List Op} (h : ∀ m ∈ b.history ops, m.Safe) : run b ops = .ok (b.run ops) := by
  induction ops generalizing b with
  | nil => rfl
  | cons op ops ih =>
    rw [Bus.history, Bus.trace, Bus.moments_append, ← Bus.step_eq_performAll,
      List.forall_mem_append] at h
    rw [run, step_eq h.1, ok_bind, ih h.2]
    rfl

/-- The guards do find what is wrong: the largest number cannot be given out. -/
example : run { Bus.new ⟨1, .alternate, 1, false⟩ with nextTicket := Word.max64 }
    [.request ⟨.outbound, .normal⟩] = .error .overflow := by decide

end Guard

end HalfDuplex

import HalfDuplex.Proofs.Parking
import Mathlib.Logic.Function.Basic

/-!
# A crowd at the gate

Any number of callers share one gate.  Each does its calls by itself; what it does at the gate it
does in stretches, and between two stretches of one caller any others may have theirs.  A sleeping
caller may wake for any reason or for none, and the time of a caller that does not wait for ever may
be over at any moment.

* `Crowd` : a gate, what the callers are doing, and the admissions that they have in hand.
* `Crowd.step` : one stretch of one caller; `Crowd.run` : a schedule of stretches.
* `Crowd.Turn` : what a stretch can come to, with the operation that it makes on the bus.
* `Crowd.Tidy` : the gate is tidy, and each of its sleepers is one caller's that sleeps.
* `Crowd.parked_run` : the list of sleepers is right after every schedule, so nobody who is woken is
  missed, and nobody leaves anything behind at the gate.

A caller whose time is over before it falls asleep has two stretches in a row.
-/

namespace HalfDuplex

/-- What a caller is doing. -/
inductive Stance where
  /-- It is between two calls. -/
  | free
  /-- It sleeps at the gate, for a limited time or without limit. -/
  | asleep (ticket : Ticket) (cell : Cell) (limited : Bool)
  deriving DecidableEq, Repr

/-- A gate with the callers in front of it. -/
structure Crowd where
  gate : Gate
  callers : Nat → Stance := fun _ => .free
  /-- The admissions that calls have returned and that nobody has given back. -/
  kept : List Admission := []

namespace Crowd

/-- What a caller sets out to do in one stretch. -/
inductive Act where
  /-- It asks for a slot and sleeps without limit if it has to. -/
  | acquire (cell : Cell)
  /-- It asks for a slot and sleeps for a limited time if it has to. -/
  | acquireWithin (cell : Cell)
  /-- It asks for a slot and goes away if there is none. -/
  | tryAcquire (cell : Cell)
  /-- It wakes, because it was called or for no reason. -/
  | wake
  /-- It wakes, and its time is over. -/
  | expire (waited : Span)
  | release (cell : Cell)
  | releaseTicket (ticket : Ticket)
  /-- It gives back what an earlier call returned.  A guard that is released or dropped does so. -/
  | releaseAdmission (admission : Admission)
  deriving DecidableEq, Repr

/-- How a stretch ends. -/
inductive Result where
  /-- The caller is not in a position to do this. -/
  | impossible
  /-- The caller goes to sleep, or back to sleep. -/
  | asleep
  | admitted (admission : Admission)
  | released
  | failed (fault : Fault)
  deriving DecidableEq, Repr

/-- Caller `i` sleeps at the gate with ticket `t` of cell `c`. -/
def Sleeps (s : Crowd) (i : Nat) (t : Ticket) (c : Cell) : Prop :=
  ∃ limited, s.callers i = .asleep t c limited

/-! ### Stretches -/

/-- A call of caller `i` returns with an admission. -/
def succeed (s : Crowd) (i : Nat) (gate : Gate) (a : Admission) : Result × Crowd :=
  (.admitted a, ⟨gate, Function.update s.callers i .free, a :: s.kept⟩)

/-- A call of caller `i` returns with a fault. -/
def fail (s : Crowd) (i : Nat) (gate : Gate) (fault : Fault) : Result × Crowd :=
  (.failed fault, ⟨gate, Function.update s.callers i .free, s.kept⟩)

/-- Caller `i` asks for a slot of cell `c`. -/
def ask (s : Crowd) (i : Nat) (c : Cell) (limited : Bool) : Result × Crowd :=
  match s.gate.arrive c with
  | (.ok (.admitted a), gate) => s.succeed i gate a
  | (.ok (.parked t), gate) =>
    (.asleep, ⟨gate, Function.update s.callers i (.asleep t c limited), s.kept⟩)
  | (.error fault, gate) => s.fail i gate fault

/-- The admissions in hand but that of ticket `t`. -/
def without (s : Crowd) (t : Ticket) : List Admission := s.kept.filter fun a => a.ticket ≠ t

/-- A release returns. -/
def settle (s : Crowd) (kept : List Admission) : Except Fault Unit × Gate → Result × Crowd
  | (.ok (), gate) => (.released, ⟨gate, s.callers, kept⟩)
  | (.error fault, gate) => (.failed fault, ⟨gate, s.callers, kept⟩)

/-- One stretch of caller `i`. -/
def step (s : Crowd) (i : Nat) (act : Act) : Result × Crowd :=
  match act, s.callers i with
  | .acquire c, .free => s.ask i c false
  | .acquireWithin c, .free => s.ask i c true
  | .tryAcquire c, .free =>
    match s.gate.tryArrive c with
    | (.ok a, gate) => s.succeed i gate a
    | (.error fault, gate) => s.fail i gate fault
  | .wake, .asleep t c _ =>
    match s.gate.resume t c with
    | (.ok (some a), gate) => s.succeed i gate a
    | (.ok none, gate) => (.asleep, { s with gate := gate })
    | (.error fault, gate) => s.fail i gate fault
  | .expire waited, .asleep t c true =>
    match s.gate.expire t c waited with
    | (.ok a, gate) => s.succeed i gate a
    | (.error fault, gate) => s.fail i gate fault
  | .release c, .free => s.settle s.kept (s.gate.release c)
  | .releaseTicket t, .free => s.settle (s.without t) (s.gate.releaseTicket t)
  | .releaseAdmission a, .free =>
    s.settle (s.without a.ticket) (s.gate.releaseTicket a.ticket)
  | _, _ => (.impossible, s)

/-- The stretches of a schedule, one after the other, each by the caller that is named with it. -/
def run (s : Crowd) : List (Nat × Act) → Crowd
  | [] => s
  | (i, act) :: rest => (s.step i act).2.run rest

/-- The operation on the bus that a stretch comes down to.  Looking for a grant in vain before a
withdrawal is none. -/
def op? (s : Crowd) (i : Nat) (act : Act) : Option Op :=
  match act, s.callers i with
  | .acquire c, .free => some (.request c)
  | .acquireWithin c, .free => some (.request c)
  | .tryAcquire c, .free => some (.tryRequest c)
  | .wake, .asleep t _ _ => some (.takeGrant t)
  | .expire _, .asleep t _ true =>
    if t ∈ s.gate.bus.granted then some (.takeGrant t) else some (.withdraw t)
  | .release c, .free => some (.release c)
  | .releaseTicket t, .free => some (.releaseTicket t)
  | .releaseAdmission a, .free => some (.releaseTicket a.ticket)
  | _, _ => none

/-- What a stretch of caller `i` can come to. -/
inductive Turn (s : Crowd) (i : Nat) (act : Act) : Result → Crowd → Prop where
  | impossible : s.op? i act = none → Turn s i act .impossible s
  /-- The caller is admitted on arrival. -/
  | arrive {op : Op} {t : Ticket} {c : Cell} : s.callers i = .free → s.op? i act = some op →
      op.arrived? (s.gate.bus.step op).1 = some (t, c) →
      Turn s i act (.admitted ⟨t, c, false⟩) (s.succeed i (s.gate.attend op) ⟨t, c, false⟩).2
  /-- The caller would have to wait and does not. -/
  | refuse {c : Cell} : s.callers i = .free → s.op? i act = some (.tryRequest c) →
      Turn s i act (.failed (.wouldBlock c))
        (s.fail i (s.gate.attend (.tryRequest c)) (.wouldBlock c)).2
  /-- The caller goes to sleep. -/
  | park {t : Ticket} {c : Cell} {limited : Bool} : s.callers i = .free →
      s.op? i act = some (.request c) →
      Op.joined? (.request c) (s.gate.bus.step (.request c)).1 = some (t, c) →
      Turn s i act .asleep ⟨s.gate.attend (.request c),
        Function.update s.callers i (.asleep t c limited), s.kept⟩
  /-- The caller looks for its grant in vain. -/
  | look {t : Ticket} {c : Cell} : s.Sleeps i t c → s.op? i act = some (.takeGrant t) →
      t ∉ s.gate.bus.granted →
      Turn s i act .asleep { s with gate := s.gate.attend (.takeGrant t) }
  /-- The caller picks up its grant. -/
  | collect {t : Ticket} {c : Cell} : s.Sleeps i t c → s.op? i act = some (.takeGrant t) →
      t ∈ s.gate.bus.granted →
      Turn s i act (.admitted ⟨t, c, true⟩)
        (s.succeed i (s.gate.attend (.takeGrant t)) ⟨t, c, true⟩).2
  /-- The caller waits no longer. -/
  | expire {t : Ticket} {c : Cell} {waited : Span} : s.Sleeps i t c →
      s.op? i act = some (.withdraw t) →
      Op.withdrawn? (.withdraw t) (s.gate.bus.step (.withdraw t)).1 = some t →
      Turn s i act (.failed (.timedOut c waited))
        (s.fail i (s.gate.attend (.withdraw t)) (.timedOut c waited)).2
  /-- The caller gives back a slot by its cell, if there is one. -/
  | release {c : Cell} : s.callers i = .free → s.op? i act = some (.release c) →
      Turn s i act
        (if (s.gate.bus.step (.release c)).1.gaveBack then .released
          else .failed (.unmatchedRelease c))
        ⟨s.gate.attend (.release c), s.callers, s.kept⟩
  /-- The caller gives back the slot of a ticket, if it holds one. -/
  | releaseTicket {t : Ticket} : s.callers i = .free → s.op? i act = some (.releaseTicket t) →
      Turn s i act
        (if (s.gate.bus.step (.releaseTicket t)).1.gaveBack then .released
          else .failed (.staleTicket t))
        ⟨s.gate.attend (.releaseTicket t), s.callers, s.without t⟩

/-- The gate is tidy, and each of its sleepers is the ticket of one sleeping caller. -/
structure Tidy (s : Crowd) : Prop where
  gate : s.gate.Tidy
  /-- Who sleeps waits in the queue of its cell or has a grant. -/
  pending : ∀ {i t c}, s.Sleeps i t c → t ∈ s.gate.bus.waiting.get c ∨ t ∈ s.gate.bus.granted
  own : ∀ {i j t c c'}, s.Sleeps i t c → s.Sleeps j t c' → i = j
  asleep : ∀ {t}, t ∈ s.gate.parked → ∃ i c, s.Sleeps i t c

variable {s : Crowd} {i : Nat} {act : Act} {t : Ticket} {c : Cell}

theorem Tidy.mem_pending (h : s.Tidy) (hs : s.Sleeps i t c) : t ∈ s.gate.bus.pending :=
  Bus.mem_pending.2 ((h.pending hs).imp_left fun hw => ⟨c, hw⟩)

theorem ask_turn (h : s.Tidy) {limited : Bool} (hfree : s.callers i = .free)
    (hop : s.op? i act = some (.request c)) :
    s.Turn i act (s.ask i c limited).1 (s.ask i c limited).2 := by
  rcases h.gate.arrive c with ⟨t, ha, hg⟩ | ⟨t, hj, hg⟩
  · simp only [ask, hg]
    exact .arrive hfree hop ha
  · simp only [ask, hg]
    exact .park hfree hop hj

theorem releaseTicket_turn (h : s.Tidy) (hfree : s.callers i = .free)
    (hop : s.op? i act = some (.releaseTicket t)) :
    s.Turn i act (s.settle (s.without t) (s.gate.releaseTicket t)).1
      (s.settle (s.without t) (s.gate.releaseTicket t)).2 := by
  have hturn := Turn.releaseTicket hfree hop
  rcases h.gate.releaseTicket t with ⟨hgave, hg⟩ | ⟨hgave, hg⟩
  · rw [hgave, if_pos rfl] at hturn
    rw [hg]
    exact hturn
  · rw [hgave, if_neg Bool.false_ne_true] at hturn
    rw [hg]
    exact hturn

/-- A stretch of a tidy crowd comes to one of the listed things. -/
theorem turn_step (h : s.Tidy) (i : Nat) (act : Act) :
    s.Turn i act (s.step i act).1 (s.step i act).2 := by
  cases hc : s.callers i with
  | free =>
    cases act with
    | acquire c =>
      simp only [step, hc]
      exact ask_turn h hc (by simp only [op?, hc])
    | acquireWithin c =>
      simp only [step, hc]
      exact ask_turn h hc (by simp only [op?, hc])
    | tryAcquire c =>
      rcases h.gate.tryArrive c with ⟨t, ha, hg⟩ | hg
      · simp only [step, hc, hg]
        exact .arrive hc (by simp only [op?, hc]) ha
      · simp only [step, hc, hg]
        exact .refuse hc (by simp only [op?, hc])
    | release c =>
      have hop : s.op? i (.release c) = some (.release c) := by simp only [op?, hc]
      have hturn := Turn.release hc hop
      rcases h.gate.release c with ⟨hgave, hg⟩ | ⟨hgave, hg⟩
      · rw [hgave, if_pos rfl] at hturn
        simp only [step, hc, hg]
        exact hturn
      · rw [hgave, if_neg Bool.false_ne_true] at hturn
        simp only [step, hc, hg]
        exact hturn
    | releaseTicket t =>
      simp only [step, hc]
      exact releaseTicket_turn h hc (by simp only [op?, hc])
    | releaseAdmission a =>
      simp only [step, hc]
      exact releaseTicket_turn h hc (by simp only [op?, hc])
    | wake | expire =>
      simp only [step, hc]
      exact .impossible (by simp only [op?, hc])
  | asleep t c limited =>
    have hs : s.Sleeps i t c := ⟨limited, hc⟩
    cases act with
    | wake =>
      have hop : s.op? i .wake = some (.takeGrant t) := by simp only [op?, hc]
      rcases h.gate.resume t c with ⟨ht, hg⟩ | ⟨ht, hg⟩
      · simp only [step, hc, hg]
        exact .collect hs hop ht
      · simp only [step, hc, hg]
        exact .look hs hop ht
    | expire waited =>
      cases limited with
      | false =>
        simp only [step, hc]
        exact .impossible (by simp only [op?, hc])
      | true =>
        rcases h.gate.expire (h.mem_pending hs) c waited with ⟨ht, hg⟩ | ⟨ht, hw, hg⟩
        · simp only [step, hc, hg]
          exact .collect hs (by simp only [op?, hc, if_pos ht]) ht
        · simp only [step, hc, hg]
          exact .expire hs (by simp only [op?, hc, if_neg ht]) hw
    | acquire | acquireWithin | tryAcquire | release | releaseTicket | releaseAdmission =>
      simp only [step, hc]
      exact .impossible (by simp only [op?, hc])

/-! ### Who sleeps after a stretch -/

theorem Sleeps.unique {t' : Ticket} {c' : Cell} (hs : s.Sleeps i t c) (hs' : s.Sleeps i t' c') :
    t = t' ∧ c = c' := by
  obtain ⟨limited, hs⟩ := hs
  obtain ⟨limited', hs'⟩ := hs'
  rw [hs] at hs'
  cases hs'
  exact ⟨rfl, rfl⟩

theorem not_sleeps_of_free (hfree : s.callers i = .free) : ¬ s.Sleeps i t c := by
  rintro ⟨limited, hs⟩
  rw [hfree] at hs
  cases hs

variable {j : Nat} {gate : Gate} {kept : List Admission}

theorem sleeps_update_free :
    Sleeps ⟨gate, Function.update s.callers i .free, kept⟩ j t c ↔ j ≠ i ∧ s.Sleeps j t c := by
  by_cases hj : j = i
  · subst hj
    simp [Sleeps]
  · simp [Sleeps, hj]

theorem sleeps_update_asleep {u : Ticket} {d : Cell} {limited : Bool} :
    Sleeps ⟨gate, Function.update s.callers i (.asleep u d limited), kept⟩ j t c ↔
      j ≠ i ∧ s.Sleeps j t c ∨ j = i ∧ u = t ∧ d = c := by
  by_cases hj : j = i
  · subst hj
    simp [Sleeps]
  · simp [Sleeps, hj]

/-- If an operation is attended to, those of its dismissed and joined tickets' callers get up and
fall asleep, and nobody else does, the crowd stays tidy. -/
theorem Tidy.of_attend (h : s.Tidy) {s' : Crowd} (op : Op) (i : Nat)
    (hgate : s'.gate = s.gate.attend op)
    (hsleeps : ∀ j t c, s'.Sleeps j t c ↔
      s.Sleeps j t c ∧ op.dismissed? (s.gate.bus.step op).1 ≠ some t ∨
        j = i ∧ op.joined? (s.gate.bus.step op).1 = some (t, c)) : s'.Tidy where
  gate := hgate ▸ h.gate.attend op
  pending {j t c} hs := by
    rw [hgate]
    rcases (hsleeps j t c).1 hs with ⟨hs, hd⟩ | ⟨-, hj⟩
    · exact Bus.pending_or_dismissed h.gate.reachable (h.pending hs) hd
    · exact Or.inl (Bus.waiting_of_joined h.gate.reachable hj).2
  own {j k t c c'} hs hs' := by
    have hnew : ∀ {c}, op.joined? (s.gate.bus.step op).1 = some (t, c) →
        t ∉ s.gate.bus.pending := fun hj => (Bus.waiting_of_joined h.gate.reachable hj).1
    rcases (hsleeps j t c).1 hs with ⟨hs, -⟩ | ⟨rfl, hj⟩
    · rcases (hsleeps k t c').1 hs' with ⟨hs', -⟩ | ⟨-, hj'⟩
      · exact h.own hs hs'
      · exact absurd (h.mem_pending hs) (hnew hj')
    · rcases (hsleeps k t c').1 hs' with ⟨hs', -⟩ | ⟨rfl, -⟩
      · exact absurd (h.mem_pending hs') (hnew hj)
      · rfl
  asleep {t} ht := by
    rw [hgate, (h.gate.parked_attend op).mem_iff] at ht
    rcases Bus.pending_or_joined h.gate.reachable ht with hold | ⟨c, hj⟩
    · obtain ⟨j, c, hs⟩ := h.asleep (h.gate.parked.mem_iff.2 hold)
      refine ⟨j, c, (hsleeps j t c).2 (Or.inl ⟨hs, fun hd => ?_⟩)⟩
      exact (Bus.pending_of_dismissed h.gate.reachable hd).2 ht
    · exact ⟨i, c, (hsleeps i t c).2 (Or.inr ⟨rfl, hj⟩)⟩

theorem Tidy.getUp (h : s.Tidy) {op : Op} (hs : s.Sleeps i t c)
    (hd : op.dismissed? (s.gate.bus.step op).1 = some t) (kept : List Admission) :
    Tidy ⟨s.gate.attend op, Function.update s.callers i .free, kept⟩ := by
  refine h.of_attend op i rfl fun j u c' => ?_
  rw [sleeps_update_free, hd, Bus.joined_of_dismissed hd]
  constructor
  · rintro ⟨hne, hs'⟩
    refine Or.inl ⟨hs', fun htu => hne ?_⟩
    rw [Option.some.inj htu] at hs
    exact h.own hs' hs
  · rintro (⟨hs', htu⟩ | ⟨-, hj⟩)
    · refine ⟨?_, hs'⟩
      rintro rfl
      exact htu (congrArg some (hs.unique hs').1)
    · cases hj

theorem Tidy.stayUp (h : s.Tidy) {s' : Crowd} {op : Op} (hgate : s'.gate = s.gate.attend op)
    (hsleeps : ∀ j t c, s'.Sleeps j t c ↔ s.Sleeps j t c)
    (hj : op.joined? (s.gate.bus.step op).1 = none)
    (hd : op.dismissed? (s.gate.bus.step op).1 = none) : s'.Tidy := by
  refine h.of_attend op 0 hgate fun j t c => ?_
  rw [hsleeps, hj, hd]
  simp

theorem sleeps_of_free (hfree : s.callers i = .free) :
    Sleeps ⟨gate, Function.update s.callers i .free, kept⟩ j t c ↔ s.Sleeps j t c := by
  rw [sleeps_update_free, and_iff_right_iff_imp]
  rintro hs rfl
  exact not_sleeps_of_free hfree hs

theorem dismissed_of_granted {b : Bus} (ht : t ∈ b.granted) :
    Op.dismissed? (.takeGrant t) (b.step (.takeGrant t)).1 = some t := by
  simp only [Bus.step, Bus.takeGrant, ht, decide_true]
  rfl

/-- **Every stretch leaves the crowd tidy.** -/
theorem Turn.tidy {r : Result} {s' : Crowd} (hturn : s.Turn i act r s') (h : s.Tidy) :
    s'.Tidy := by
  cases hturn with
  | impossible => exact h
  | arrive hfree _ ha =>
    obtain ⟨hj, hd⟩ := Bus.told_of_arrived ha
    exact h.stayUp rfl (fun _ _ _ => sleeps_of_free hfree) hj hd
  | refuse hfree => exact h.stayUp rfl (fun _ _ _ => sleeps_of_free hfree) rfl rfl
  | @park t c limited hfree _ hj =>
    refine h.of_attend (.request c) i rfl fun j u c' => ?_
    rw [sleeps_update_asleep, hj, Bus.dismissed_of_joined hj]
    constructor
    · rintro (⟨-, hs⟩ | ⟨rfl, rfl, rfl⟩)
      · exact Or.inl ⟨hs, nofun⟩
      · exact Or.inr ⟨rfl, rfl⟩
    · rintro (⟨hs, -⟩ | ⟨rfl, hu⟩)
      · refine Or.inl ⟨?_, hs⟩
        rintro rfl
        exact not_sleeps_of_free hfree hs
      · cases hu
        exact Or.inr ⟨rfl, rfl, rfl⟩
  | look _ _ ht =>
    rw [Gate.attend_look ht]
    exact h
  | collect hs _ ht => exact h.getUp hs (dismissed_of_granted ht) _
  | expire hs _ hw => exact h.getUp hs (Bus.dismissed_of_withdrawn hw) _
  | release => exact h.stayUp rfl (fun _ _ _ => Iff.rfl) rfl rfl
  | releaseTicket => exact h.stayUp rfl (fun _ _ _ => Iff.rfl) rfl rfl

theorem Tidy.run (h : s.Tidy) (schedule : List (Nat × Act)) : (s.run schedule).Tidy := by
  induction schedule generalizing s with
  | nil => exact h
  | cons x rest ih => exact ih ((turn_step h x.1 x.2).tidy h)

/-! ### What a stretch leaves behind -/

/-- What a stretch with result `r` leaves behind at the gate: nobody who is woken is missed, and
whose call returns is gone. -/
structure Clean (s : Crowd) (i : Nat) (act : Act) (r : Result) (s' : Crowd) : Prop where
  still : s.op? i act = none → s'.gate = s.gate
  bus : ∀ op, s.op? i act = some op → s'.gate.bus = (s.gate.bus.step op).2
  /-- The callers that are woken in this stretch are called in this stretch. -/
  woken : ∀ op, s.op? i act = some op → ∀ t ∈ (s.gate.bus.step op).1.woken,
    t ∉ s.gate.called ∧ t ∈ s'.gate.called ∧ t ∈ s'.gate.parked
  /-- Only callers without a grant sleep on, or fall asleep. -/
  asleep : r = .asleep → ∃ t c, s'.Sleeps i t c ∧ t ∉ s'.gate.bus.granted
  timedOut : ∀ c waited, r = .failed (.timedOut c waited) → ∃ t, s.Sleeps i t c ∧
    (∀ c', t ∉ s'.gate.bus.waiting.get c') ∧ t ∉ s'.gate.bus.granted ∧
      t ∉ s'.gate.bus.holders.map Prod.fst ∧ t ∉ s'.gate.parked
  admitted : ∀ a, r = .admitted a → (∀ c', a.ticket ∉ s'.gate.bus.waiting.get c') ∧
    a.ticket ∉ s'.gate.bus.granted ∧ a.ticket ∉ s'.gate.parked

theorem Turn.eq_self {r : Result} {s' : Crowd} (hturn : s.Turn i act r s')
    (hnone : s.op? i act = none) : s' = s := by
  cases hturn with
  | impossible => rfl
  | arrive _ hop | refuse _ hop | park _ hop | look _ hop | collect _ hop | expire _ hop
    | release _ hop | releaseTicket _ hop =>
    rw [hop] at hnone
    cases hnone

/-- A stretch that comes to an operation attends to it. -/
theorem Turn.attends {r : Result} {s' : Crowd} {op : Op} (hturn : s.Turn i act r s')
    (hop : s.op? i act = some op) : s'.gate = s.gate.attend op := by
  cases hturn with
  | impossible hnone =>
    rw [hnone] at hop
    cases hop
  | arrive _ hop' | refuse _ hop' | park _ hop' | look _ hop' | collect _ hop' | expire _ hop'
    | release _ hop' | releaseTicket _ hop' =>
    rw [hop'] at hop
    cases hop
    rfl

theorem config_run (h : s.Tidy) (schedule : List (Nat × Act)) :
    (s.run schedule).gate.bus.config = s.gate.bus.config := by
  induction schedule generalizing s with
  | nil => rfl
  | cons x rest ih =>
    have hturn := turn_step h x.1 x.2
    have hconfig : (s.step x.1 x.2).2.gate.bus.config = s.gate.bus.config := by
      cases hop : s.op? x.1 x.2 with
      | none => rw [hturn.eq_self hop]
      | some op =>
        rw [hturn.attends hop]
        exact Bus.config_step s.gate.bus op
    rw [← hconfig]
    exact ih (hturn.tidy h)

theorem Tidy.not_called_of_woken (h : s.Tidy) {op : Op}
    (ht : t ∈ (s.gate.bus.step op).1.woken) : t ∉ s.gate.called := by
  obtain ⟨c, hc⟩ := Bus.waited_of_departed h.gate.reachable (Or.inl ht)
  rw [h.gate.mem_called]
  exact h.gate.reachable.sound.tickets.not_granted hc

theorem Tidy.gone (h : s.Tidy) (ht : t ∉ s.gate.bus.pending) :
    (∀ c, t ∉ s.gate.bus.waiting.get c) ∧ t ∉ s.gate.bus.granted ∧ t ∉ s.gate.parked := by
  rw [← h.gate.parked.mem_iff] at ht
  refine ⟨fun c hc => ht ?_, fun hg => ht ?_, ht⟩
  · exact h.gate.mem_parked.2 (Or.inl ⟨c, hc⟩)
  · exact h.gate.mem_parked.2 (Or.inr hg)

/-- **Every stretch leaves the gate clean.** -/
theorem Turn.clean {r : Result} {s' : Crowd} (hturn : s.Turn i act r s') (h : s.Tidy) :
    s.Clean i act r s' where
  still hnone := by rw [hturn.eq_self hnone]
  bus op hop := by
    rw [hturn.attends hop]
    rfl
  woken op hop t ht := by
    have hparked : t ∈ s'.gate.parked := by
      rw [hturn.attends hop]
      exact h.gate.parked_of_woken ht
    have hcalled : t ∈ s'.gate.called := by
      rw [(hturn.tidy h).gate.mem_called, hturn.attends hop]
      exact Bus.granted_of_woken h.gate.reachable ht
    exact ⟨h.not_called_of_woken ht, hcalled, hparked⟩
  asleep hr := by
    cases hturn with
    | @park t c limited hfree _ hj =>
      have hwaits := (Bus.waiting_of_joined h.gate.reachable hj).2
      have hreach := h.gate.reachable.step (.request c)
      refine ⟨t, c, sleeps_update_asleep.2 (Or.inr ⟨rfl, rfl, rfl⟩), ?_⟩
      exact hreach.sound.tickets.not_granted hwaits
    | @look t c hs _ ht =>
      rw [Gate.attend_look ht]
      exact ⟨t, c, hs, ht⟩
    | release | releaseTicket => split_ifs at hr
    | impossible | arrive | refuse | collect | expire => cases hr
  timedOut c waited hr := by
    have htidy := hturn.tidy h
    cases hturn with
    | @expire t c' waited' hs _ hw =>
      cases hr
      have hgone := Bus.pending_of_dismissed h.gate.reachable (Bus.dismissed_of_withdrawn hw)
      obtain ⟨hwaits, hgrant, hparked⟩ := htidy.gone hgone.2
      exact ⟨t, hs, hwaits, hgrant, Bus.not_holding_of_withdrawn h.gate.reachable hw, hparked⟩
    | release | releaseTicket =>
      split_ifs at hr
      cases hr
    | impossible | arrive | refuse | park | look | collect => cases hr
  admitted a hr := by
    have htidy := hturn.tidy h
    cases hturn with
    | arrive _ _ ha =>
      cases hr
      exact htidy.gone (Bus.not_pending_of_arrived h.gate.reachable ha)
    | collect _ _ ht =>
      cases hr
      exact htidy.gone (Bus.pending_of_dismissed h.gate.reachable (dismissed_of_granted ht)).2
    | release | releaseTicket => split_ifs at hr
    | impossible | refuse | park | look | expire => cases hr

theorem tidy_start {config : Config} {g : Gate} (hg : Gate.build config = .ok g) :
    Tidy { gate := g } := by
  unfold Gate.build Bus.build at hg
  split_ifs at hg with hc
  · cases hg
    refine ⟨⟨rfl, Bus.reachable_new hc, List.Perm.refl _, List.Perm.refl _⟩, ?_, ?_, ?_⟩
    · rintro i t c ⟨limited, hs⟩
      cases hs
    · rintro i j t c c' ⟨limited, hs⟩
      cases hs
    · intro t ht
      cases ht
  · cases hg

theorem config_start {config : Config} {g : Gate} (hg : Gate.build config = .ok g)
    (schedule : List (Nat × Act)) :
    (run { gate := g } schedule).gate.bus.config = config := by
  rw [config_run (tidy_start hg)]
  unfold Gate.build Bus.build at hg
  split_ifs at hg
  · cases hg
    rfl
  · cases hg

/-- **The list of sleepers is right.**  Whatever callers do at a gate, in any number and any order:
between two stretches exactly those tickets sleep that wait or have a grant, and those with a grant
have been called.  A caller that sleeps and has no grant can withdraw.  Every stretch calls
everybody whom it wakes, who then sleeps at the gate; a call that times out leaves nothing of its
ticket behind, and one that returns an admission leaves nothing but the slot. -/
theorem parked_run {config : Config} {g : Gate} (hg : Gate.build config = .ok g)
    (schedule : List (Nat × Act)) :
    let s := run { gate := g } schedule
    (∀ t, t ∈ s.gate.parked ↔
        (∃ c, t ∈ s.gate.bus.waiting.get c) ∨ t ∈ s.gate.bus.granted) ∧
      (∀ t, t ∈ s.gate.called ↔ t ∈ s.gate.bus.granted) ∧
      (∀ t ∈ s.gate.parked, ∃ i c, s.Sleeps i t c) ∧
      (∀ i t c, s.Sleeps i t c → (s.gate.bus.takeGrant t).1 = false →
        ∃ woken, (s.gate.bus.withdraw t).1 = .removed woken) ∧
      ∀ i act, s.Clean i act (s.step i act).1 (s.step i act).2 := by
  intro s
  have h : s.Tidy := (tidy_start hg).run schedule
  refine ⟨fun t => h.gate.mem_parked, fun t => h.gate.mem_called, fun t => h.asleep, ?_,
    fun i act => (turn_step h i act).clean h⟩
  intro i t c hs hgrant
  have hnone : t ∉ s.gate.bus.granted := of_decide_eq_false hgrant
  exact Bus.withdraw_removed_iff.2 ⟨c, (h.pending hs).resolve_right hnone⟩

/-- Two callers sleep behind a slot.  One is called when the slot is given back; the time of the
other is over before it is called. -/
theorem parked_run_one_slot :
    ∃ g, Gate.build ⟨1, .alternate, 1, false⟩ = .ok g ∧
      let s := run { gate := g } [(0, .acquire ⟨.outbound, .normal⟩),
        (1, .acquire ⟨.inbound, .normal⟩), (2, .acquireWithin ⟨.outbound, .normal⟩),
        (0, .releaseTicket 0), (2, .wake)]
      s.gate.parked = [2, 1] ∧ s.gate.called = [1] ∧
        (∃ woken, (s.gate.bus.withdraw 2).1 = .removed woken) ∧
        (s.step 2 (.expire (.ofSeconds 5 0))).1 =
          .failed (.timedOut ⟨.outbound, .normal⟩ (.ofSeconds 5 0)) ∧
        2 ∉ (s.step 2 (.expire (.ofSeconds 5 0))).2.gate.parked ∧
        (s.step 1 .wake).1 = .admitted ⟨1, ⟨.inbound, .normal⟩, true⟩ ∧
        1 ∉ (s.step 1 .wake).2.gate.parked := by
  have hbuild : Gate.build ⟨1, .alternate, 1, false⟩ =
      .ok { bus := Bus.new ⟨1, .alternate, 1, false⟩ } := rfl
  refine ⟨_, hbuild, rfl, rfl, ?_⟩
  obtain ⟨-, -, -, hwithdraw, hclean⟩ := parked_run hbuild [(0, .acquire ⟨.outbound, .normal⟩),
      (1, .acquire ⟨.inbound, .normal⟩), (2, .acquireWithin ⟨.outbound, .normal⟩),
      (0, .releaseTicket 0), (2, .wake)]
  refine ⟨hwithdraw 2 2 ⟨.outbound, .normal⟩ ⟨true, rfl⟩ rfl, rfl, ?_, rfl, ?_⟩
  · obtain ⟨t, ⟨limited, hs⟩, -, -, -, hparked⟩ :=
      (hclean 2 (.expire (.ofSeconds 5 0))).timedOut _ _ rfl
    cases hs
    exact hparked
  · exact ((hclean 1 .wake).admitted _ rfl).2.2

end Crowd

end HalfDuplex

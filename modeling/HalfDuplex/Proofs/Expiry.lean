import HalfDuplex.Proofs.Crowd
import HalfDuplex.Proofs.Withdrawal

/-!
# A request that expires leaves no trace

A caller whose time is over withdraws, and a withdrawal lets in whoever may go.  If nobody else did
anything while the caller slept, then nobody may go: the request had to wait on a bus on which
nobody was left to let in, and without the request that is the same bus again.

* `Bus.passedBy` : a bus after a request that came and went.
* `Bus.withdraw_request` : to be queued and withdraw leaves no more than that.
* `Gate.Tidy.attend_request_withdraw` : neither the sleepers nor those called are others for it.
* `Crowd.wake_in_vain`, `Crowd.expire_alone` : a sleeper at a gate where nothing happens.
* `Crowd.expired_request` : both for the buses of runs and for whole calls at a gate.
-/

namespace HalfDuplex

namespace Bus

/-- Bus `b` after a request that waited and withdrew: the number of the request is used up, and its
withdrawal is counted. -/
def passedBy (b : Bus) : Bus :=
  { b with
    nextTicket := b.nextTicket + 1
    stats := { b.stats with withdrawn := b.stats.withdrawn + 1 } }

variable {b : Bus} {t : Ticket} {c : Cell}

theorem request_of_queued (hq : (b.request c).1 = .queued t) : b.accepts c = false ∧
    t = b.nextTicket ∧ (b.request c).2 = b.perform (.enqueue b.nextTicket c) := by
  unfold request at hq ⊢
  split_ifs at hq ⊢ with hacc
  · cases hq
    exact ⟨by simpa using hacc, rfl, rfl⟩

theorem unqueued_enqueue (h : b.TicketsFit) (c : Cell) :
    (b.perform (.enqueue b.nextTicket c)).unqueued b.nextTicket c = b.passedBy := by
  have hnew : b.nextTicket ∉ b.waiting.get c := fun hw => Nat.lt_irrefl _ (h.waiting_lt hw)
  have herase : (b.waiting.get c ++ [b.nextTicket]).erase b.nextTicket = b.waiting.get c := by
    rw [List.erase_append_right _ hnew, List.erase_cons_head, List.append_nil]
  simp only [unqueued, perform, PerCell.get_set, ↓reduceIte, herase, PerCell.set_set,
    PerCell.set_get]
  rfl

/-- **To be queued and withdraw leaves no trace** but the number and the count. -/
theorem withdraw_request (h : b.Sound) (hs : b.Settled) (hq : (b.request c).1 = .queued t) :
    (b.request c).2.withdraw t = (.removed [], b.passedBy) := by
  obtain ⟨hacc, rfl, hbus⟩ := request_of_queued hq
  have hsound : (b.perform (.enqueue b.nextTicket c)).Sound := h.perform (.enqueue hs hacc)
  have hwaits : b.nextTicket ∈ (b.perform (.enqueue b.nextTicket c)).waiting.get c := by
    rw [waiting_perform, PerCell.get_set, if_pos rfl]
    exact List.mem_append_right _ List.mem_cons_self
  have hleft : b.passedBy.Sound := by
    rw [← unqueued_enqueue h.tickets c]
    exact hsound.perform (.leave (hs.enqueue hacc) hwaits)
  -- the queues and the held slots are those of `b`, so nobody is left to let in
  have hsettled : b.passedBy.Settled := ⟨hs.idle, hs.busy⟩
  rw [hbus, withdraw_of_waiting hsound.tickets hwaits, unqueued_enqueue h.tickets,
    hsettled.dispatch_nobody hleft]

end Bus

namespace Gate

variable {g : Gate} {t : Ticket} {c : Cell}

theorem unpark_park (hparked : t ∉ g.parked) (hcalled : t ∉ g.called) :
    (g.park t).unpark t = g := by
  have hself : (t :: g.parked).filter (· ≠ t) = g.parked := by
    rw [List.filter_cons_of_neg (by simp), Bus.filter_ne_eq_self hparked]
  simp only [park, unpark, hself, Bus.filter_ne_eq_self hcalled]

/-- **A sleeper that gives up at once leaves the gate as it was**, with the bus passed by. -/
theorem Tidy.attend_request_withdraw (h : g.Tidy)
    (hj : Op.joined? (.request c) (g.bus.step (.request c)).1 = some (t, c)) :
    (g.attend (.request c)).attend (.withdraw t) = g.withBus g.bus.passedBy := by
  have hq : (g.bus.request c).1 = .queued t := by
    cases ha : (g.bus.request c).1 with
    | admitted => simp [Bus.step, ha, Op.joined?] at hj
    | queued => simpa [Bus.step, ha, Op.joined?] using hj
  have hwithdraw : (g.attend (.request c)).bus.step (.withdraw t) =
      (.withdraw (.removed []), g.bus.passedBy) := by
    have hbus : (g.attend (.request c)).bus.withdraw t = (.removed [], g.bus.passedBy) :=
      Bus.withdraw_request h.reachable.sound h.reachable.settled hq
    simp only [Bus.step, hbus]
  have hd : Op.dismissed? (.withdraw t) ((g.attend (.request c)).bus.step (.withdraw t)).1 =
      some t := by
    rw [hwithdraw]
    rfl
  -- the ticket is new, so neither list had it
  have hnew : t ∉ g.bus.pending := (Bus.waiting_of_joined h.reachable hj).1
  have hparked : t ∉ g.parked := fun hmem => hnew (h.parked.mem_iff.1 hmem)
  have hcalled : t ∉ g.called := fun hmem =>
    hnew (List.mem_append_right _ (h.called.mem_iff.1 hmem))
  rw [attend_of_dismissed hd, hwithdraw, attend_of_joined hj]
  exact (call_nil _).trans (unpark_park (g := g.withBus g.bus.passedBy) hparked hcalled)

end Gate

namespace Crowd

variable {s : Crowd} {i : Nat} {t : Ticket} {c : Cell}

/-- The crowd after caller `i` fell asleep for a limited time, with ticket `t` of cell `c`. -/
def parkCaller (s : Crowd) (i : Nat) (t : Ticket) (c : Cell) : Crowd :=
  ⟨s.gate.attend (.request c), Function.update s.callers i (.asleep t c true), s.kept⟩

theorem step_acquireWithin_asleep (h : s.Tidy) (hr : (s.step i (.acquireWithin c)).1 = .asleep) :
    ∃ t, s.callers i = .free ∧
      Op.joined? (.request c) (s.gate.bus.step (.request c)).1 = some (t, c) ∧
      (s.step i (.acquireWithin c)).2 = s.parkCaller i t c := by
  cases hc : s.callers i with
  | asleep =>
    simp only [step, hc] at hr
    cases hr
  | free =>
    simp only [step, hc, ask] at hr ⊢
    rcases h.gate.arrive c with ⟨t, -, hg⟩ | ⟨t, hj, hg⟩
    · rw [hg] at hr
      cases hr
    · exact ⟨t, trivial, hj, by rw [hg, parkCaller]⟩

theorem wake_in_vain (h : s.Tidy) (hs : s.callers i = .asleep t c true)
    (hnone : t ∉ s.gate.bus.granted) (n : Nat) : s.run (List.replicate n (i, .wake)) = s := by
  have hstep : (s.step i .wake).2 = s := by
    rcases h.gate.resume t c with ⟨ht, -⟩ | ⟨-, hg⟩
    · exact absurd ht hnone
    · simp only [step, hs, hg, Gate.attend_look hnone]
  induction n with
  | zero => rfl
  | succ n ih => rw [List.replicate_succ, run, hstep, ih]

/-- A sleeper wakes in vain and then gives up, and nobody else did anything meanwhile. -/
theorem expire_alone (h : s.Tidy) (hfree : s.callers i = .free)
    (hj : Op.joined? (.request c) (s.gate.bus.step (.request c)).1 = some (t, c))
    (hasleep : (s.parkCaller i t c).Tidy) (wakes : Nat) (waited : Span) :
    ((s.parkCaller i t c).run (List.replicate wakes (i, .wake))).step i (.expire waited) =
      (.failed (.timedOut c waited), { s with gate := s.gate.withBus s.gate.bus.passedBy }) := by
  have hcaller : (s.parkCaller i t c).callers i = .asleep t c true := Function.update_self ..
  have hwaits : t ∈ (s.parkCaller i t c).gate.bus.waiting.get c :=
    (Bus.waiting_of_joined h.gate.reachable hj).2
  have hnone : t ∉ (s.parkCaller i t c).gate.bus.granted :=
    hasleep.gate.reachable.sound.tickets.not_granted hwaits
  have hpending : t ∈ (s.parkCaller i t c).gate.bus.pending :=
    Bus.mem_pending.2 (Or.inl ⟨c, hwaits⟩)
  obtain ⟨-, -, hexpire⟩ := (hasleep.gate.expire hpending c waited).resolve_left
    fun hgrant => hnone hgrant.1
  have hgate : (s.parkCaller i t c).gate.attend (.withdraw t) =
      s.gate.withBus s.gate.bus.passedBy := h.gate.attend_request_withdraw hj
  have hcallers : Function.update (s.parkCaller i t c).callers i .free = s.callers := by
    rw [parkCaller, Function.update_idem, ← hfree, Function.update_eq_self]
  rw [wake_in_vain hasleep hcaller hnone]
  simp only [step, hcaller, hexpire, fail, hgate, hcallers]
  rfl

/-- **A request that expires leaves no trace.**  On every bus of a run, a request that is queued and
withdraws next lets nobody in and leaves the bus as it was: only its number is used up, and its
withdrawal counted.  So whatever callers did at a gate, a call for a limited time that goes to sleep
there and is over before anybody else does anything times out and leaves the gate, the callers and
their admissions as they were, however often it woke. -/
theorem expired_request :
    (∀ {b : Bus}, b.Reachable → ∀ c t, (b.request c).1 = .queued t →
      (b.request c).2.withdraw t = (.removed [], b.passedBy)) ∧
    ∀ {config : Config} {g : Gate}, Gate.build config = .ok g → ∀ schedule i c,
      let s := run { gate := g } schedule
      (s.step i (.acquireWithin c)).1 = .asleep → ∀ wakes waited,
        (s.run ((i, .acquireWithin c) :: List.replicate wakes (i, .wake))).step i
          (.expire waited) = (.failed (.timedOut c waited),
            { s with gate := s.gate.withBus s.gate.bus.passedBy }) := by
  refine ⟨fun h c t hq => Bus.withdraw_request h.sound h.settled hq, ?_⟩
  intro config g hg schedule i c s hr wakes waited
  have h : s.Tidy := (tidy_start hg).run schedule
  obtain ⟨t, hfree, hj, hpark⟩ := step_acquireWithin_asleep h hr
  have hasleep : (s.step i (.acquireWithin c)).2.Tidy := (turn_step h i _).tidy h
  rw [hpark] at hasleep
  rw [run, hpark]
  exact expire_alone h hfree hj hasleep wakes waited

/-- A caller of the other direction gives up beside a free slot of a yielding bus, after it woke
twice; before it, only the slot in use and its ticket are known to the gate. -/
theorem expired_request_two_slots :
    (∃ b : Bus, b.Reachable ∧ b.config = ⟨2, .alternate, 1, true⟩ ∧ b.active = 1 ∧
      (b.request ⟨.inbound, .elevated⟩).1 = .queued 1 ∧
      (b.request ⟨.inbound, .elevated⟩).2.withdraw 1 = (.removed [], b.passedBy)) ∧
    ∃ g, Gate.build ⟨2, .alternate, 1, true⟩ = .ok g ∧
      let s := run { gate := g } [(0, .acquire ⟨.outbound, .normal⟩)]
      let waited := Span.ofSeconds 5 0
      s.kept = [⟨0, ⟨.outbound, .normal⟩, false⟩] ∧
      (s.step 1 (.acquireWithin ⟨.inbound, .elevated⟩)).1 = .asleep ∧
      (s.run [(1, .acquireWithin ⟨.inbound, .elevated⟩), (1, .wake), (1, .wake)]).step 1
        (.expire waited) = (.failed (.timedOut ⟨.inbound, .elevated⟩ waited),
          { s with gate := s.gate.withBus s.gate.bus.passedBy }) := by
  have hbuild : Gate.build ⟨2, .alternate, 1, true⟩ =
      .ok { bus := Bus.new ⟨2, .alternate, 1, true⟩ } := rfl
  have hreach : Bus.Reachable ((Bus.new ⟨2, .alternate, 1, true⟩).run
    [.request ⟨.outbound, .normal⟩]).2 := ⟨by decide, _, rfl⟩
  constructor
  · exact ⟨_, hreach, rfl, rfl, rfl, expired_request.1 hreach _ 1 rfl⟩
  · refine ⟨_, hbuild, rfl, rfl, ?_⟩
    exact expired_request.2 hbuild [(0, .acquire ⟨.outbound, .normal⟩)] 1
      ⟨.inbound, .elevated⟩ rfl 2 (.ofSeconds 5 0)

end Crowd

end HalfDuplex

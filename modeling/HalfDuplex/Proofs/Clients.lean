import HalfDuplex.Proofs.InHand

/-!
# Well-behaved clients

An admission says that its ticket holds a slot.  A caller gets it from a stretch that another caller
may have made for it, and between that stretch and its own any others may come.  If callers give
back nothing but admissions in hand, each of them stays good until it is given back.

* `Crowd.Act.honest`, `Crowd.Honest` : callers give back only admissions in hand.
* `Crowd.Sure` : every admission in hand, and every grant that a caller sleeps for, stands for a
  slot.
* `Crowd.Turn.sure` : every honest stretch keeps it so.
* `Crowd.clients_run` : what honest callers can rely on.

Giving back by cell is not honest: the slot that it takes away is the oldest of the cell, which may
be somebody else's.
-/

namespace HalfDuplex

namespace Crowd

/-- The act gives back nothing but an admission in hand. -/
def Act.honest (kept : List Admission) : Act → Bool
  | .release _ => false
  | .releaseTicket t => t ∈ kept.map Admission.ticket
  | .releaseAdmission a => a ∈ kept
  | _ => true

/-- In all stretches of a schedule callers give back nothing but admissions in hand. -/
def Honest (s : Crowd) : List (Nat × Act) → Prop
  | [] => True
  | (i, act) :: rest => act.honest s.kept = true ∧ (s.step i act).2.Honest rest

/-- Every admission in hand stands for a slot, and so does every grant that a caller sleeps for. -/
structure Sure (s : Crowd) : Prop where
  tidy : s.Tidy
  held : ∀ a ∈ s.kept, (a.ticket, a.cell) ∈ s.gate.bus.holders
  once : (s.kept.map Admission.ticket).Nodup
  gone : ∀ a ∈ s.kept, a.ticket ∉ s.gate.bus.pending
  granted : ∀ {i t c}, s.Sleeps i t c → t ∈ s.gate.bus.granted → (t, c) ∈ s.gate.bus.holders

variable {s s' : Crowd} {i j : Nat} {act : Act} {op : Op} {r : Result} {t : Ticket} {c : Cell}

theorem op_of_honest (hact : act.honest s.kept = true) (hop : s.op? i act = some op) :
    (∀ c, op ≠ .release c) ∧
      ∀ t, op = .releaseTicket t → t ∈ s.kept.map Admission.ticket := by
  cases hc : s.callers i with
  | free =>
    cases act with
    | release => cases hact
    | releaseTicket u =>
      simp only [op?, hc, Option.some.injEq] at hop
      subst hop
      refine ⟨by simp, fun t ht => ?_⟩
      cases ht
      exact of_decide_eq_true hact
    | releaseAdmission a =>
      simp only [op?, hc, Option.some.injEq] at hop
      subst hop
      refine ⟨by simp, fun t ht => ?_⟩
      cases ht
      exact List.mem_map_of_mem (of_decide_eq_true hact)
    | acquire | acquireWithin | tryAcquire =>
      simp only [op?, hc, Option.some.injEq] at hop
      subst hop
      exact ⟨by simp, by simp⟩
    | wake | expire =>
      simp only [op?, hc] at hop
      cases hop
  | asleep u d limited =>
    cases act with
    | wake =>
      simp only [op?, hc, Option.some.injEq] at hop
      subst hop
      exact ⟨by simp, by simp⟩
    | expire =>
      cases limited with
      | false =>
        simp only [op?, hc] at hop
        cases hop
      | true =>
        simp only [op?, hc] at hop
        split_ifs at hop <;>
        · cases hop
          exact ⟨by simp, by simp⟩
    | acquire | acquireWithin | tryAcquire | release | releaseTicket | releaseAdmission =>
      simp only [op?, hc] at hop
      cases hop

theorem Sure.stays (h : s.Sure) (hcell : ∀ c, op ≠ .release c) {a : Admission} (ha : a ∈ s.kept)
    (hticket : op ≠ .releaseTicket a.ticket) :
    (a.ticket, a.cell) ∈ (s.gate.bus.step op).2.holders ∧
      a.ticket ∉ (s.gate.bus.step op).2.pending :=
  Bus.mem_inHand.1 (Bus.stays_inHand h.tidy.gate.reachable
    (Bus.mem_inHand.2 ⟨h.held a ha, h.gone a ha⟩) hticket hcell)

/-- A stretch adds the admission that it returns to those in hand, or takes one away. -/
theorem Turn.kept (hturn : s.Turn i act r s') :
    (∃ a, r = .admitted a ∧ s'.kept = a :: s.kept) ∨ s'.kept.Sublist s.kept := by
  cases hturn with
  | arrive | collect => exact Or.inl ⟨_, rfl, rfl⟩
  | releaseTicket => exact Or.inr List.filter_sublist
  | impossible | refuse | park | look | expire | release => exact Or.inr (List.Sublist.refl _)

theorem Turn.not_given_back (hturn : s.Turn i act r s') {a : Admission} (ha : a ∈ s'.kept) :
    s.op? i act ≠ some (.releaseTicket a.ticket) := by
  intro hop
  cases hturn with
  | releaseTicket _ hop' =>
    rw [hop] at hop'
    cases hop'
    exact of_decide_eq_true (List.mem_filter.1 ha).2 rfl
  | arrive _ hop' harr =>
    rw [hop] at hop'
    cases hop'
    cases harr
  | impossible hop' | refuse _ hop' | park _ hop' | look _ hop' | collect _ hop' | expire _ hop'
    | release _ hop' =>
    rw [hop] at hop'
    cases hop'

theorem Turn.fresh (hturn : s.Turn i act r s') (h : s.Sure) {a : Admission}
    (hr : r = .admitted a) :
    (a.ticket, a.cell) ∈ s'.gate.bus.holders ∧ a.ticket ∉ s'.gate.bus.pending ∧
      a.ticket ∉ s.kept.map Admission.ticket := by
  have hreach := h.tidy.gate.reachable
  cases hturn with
  | arrive _ _ harr =>
    cases hr
    refine ⟨Bus.holding_of_arrived hreach harr, Bus.not_pending_of_arrived hreach harr, ?_⟩
    -- the ticket is new
    intro hmem
    obtain ⟨a, ha, hat⟩ := List.mem_map.1 hmem
    have hlt := hreach.sound.tickets.holding_lt (List.mem_map_of_mem (h.held a ha))
    rw [hat, Bus.arrived_eq_next harr] at hlt
    exact Nat.lt_irrefl _ hlt
  | @collect t c hs _ ht =>
    cases hr
    have hd := Bus.pending_of_dismissed hreach (dismissed_of_granted ht)
    have hheld := Bus.holding_step hreach (.takeGrant t) (h.granted hs ht) nofun nofun
    refine ⟨hheld, hd.2, fun hmem => ?_⟩
    obtain ⟨a, ha, hat⟩ := List.mem_map.1 hmem
    exact h.gone a ha (hat ▸ hd.1)
  | release | releaseTicket => split_ifs at hr
  | impossible | refuse | park | look | expire => cases hr

theorem Turn.sleeps_cases (hturn : s.Turn i act r s') (hs : s'.Sleeps j t c) :
    s.Sleeps j t c ∨ ∃ op, s.op? i act = some op ∧
      op.joined? (s.gate.bus.step op).1 = some (t, c) := by
  cases hturn with
  | impossible | look | release | releaseTicket => exact Or.inl hs
  | arrive | refuse | collect | expire => exact Or.inl (sleeps_update_free.1 hs).2
  | park _ hop hj =>
    rcases sleeps_update_asleep.1 hs with ⟨-, hs⟩ | ⟨-, rfl, rfl⟩
    · exact Or.inl hs
    · exact Or.inr ⟨_, hop, hj⟩

theorem Sure.granted_step (h : s.Sure) (hcell : ∀ c, op ≠ .release c)
    (hkept : ∀ t, op = .releaseTicket t → t ∈ s.kept.map Admission.ticket)
    (hs : s.Sleeps i t c) (ht : t ∈ (s.gate.bus.step op).2.granted) :
    (t, c) ∈ (s.gate.bus.step op).2.holders := by
  have hreach := h.tidy.gate.reachable
  have howed : s.gate.bus.Owed (t, c) :=
    (h.tidy.pending hs).imp_right fun hold => ⟨hold, h.granted hs hold⟩
  have hpending : t ∈ (s.gate.bus.step op).2.pending := List.mem_append_right _ ht
  have hstill := howed.step hreach (fun hd => (Bus.pending_of_dismissed hreach hd).2 hpending) ?_
    hcell
  · exact (hstill.resolve_left fun hw =>
      (hreach.step op).sound.tickets.not_granted hw ht).2
  -- what is in hand is pending no more
  · intro hop
    obtain ⟨a, ha, hat⟩ := List.mem_map.1 (hkept t hop)
    exact h.gone a ha (hat ▸ h.tidy.mem_pending hs)

/-- **Every honest stretch keeps the admissions in hand good.** -/
theorem Turn.sure (hturn : s.Turn i act r s') (h : s.Sure) (hact : act.honest s.kept = true) :
    s'.Sure := by
  have htidy := hturn.tidy h.tidy
  cases hop : s.op? i act with
  | none =>
    rw [hturn.eq_self hop]
    exact h
  | some op =>
    obtain ⟨hcell, hkept⟩ := op_of_honest hact hop
    have hgate := hturn.attends hop
    have hgood : ∀ a ∈ s'.kept, a ∈ s.kept → (a.ticket, a.cell) ∈ s'.gate.bus.holders ∧
        a.ticket ∉ s'.gate.bus.pending := by
      intro a ha hold
      rw [hgate]
      exact h.stays hcell hold fun hop' => hturn.not_given_back ha (hop' ▸ hop)
    have hgranted : ∀ {j t c}, s'.Sleeps j t c → t ∈ s'.gate.bus.granted →
        (t, c) ∈ s'.gate.bus.holders := by
      intro j t c hs ht
      rw [hgate] at ht ⊢
      rcases hturn.sleeps_cases hs with hs | ⟨op', hop', hj⟩
      · exact h.granted_step hcell hkept hs ht
      -- who has just fallen asleep has no grant
      · rw [hop] at hop'
        cases hop'
        have hreach := h.tidy.gate.reachable
        have hwaits := (Bus.waiting_of_joined hreach hj).2
        exact absurd ht ((hreach.step op).sound.tickets.not_granted hwaits)
    rcases hturn.kept with ⟨a, hr, heq⟩ | hsub
    · obtain ⟨hheld, hgone, hnew⟩ := hturn.fresh h hr
      rw [heq] at hgood
      refine ⟨htidy, ?_, ?_, ?_, hgranted⟩
      · rw [heq, List.forall_mem_cons]
        exact ⟨hheld, fun a' ha' => (hgood a' (List.mem_cons_of_mem _ ha') ha').1⟩
      · rw [heq]
        exact List.nodup_cons.2 ⟨hnew, h.once⟩
      · rw [heq, List.forall_mem_cons]
        exact ⟨hgone, fun a' ha' => (hgood a' (List.mem_cons_of_mem _ ha') ha').2⟩
    · exact ⟨htidy, fun a ha => (hgood a ha (hsub.subset ha)).1, h.once.sublist (hsub.map _),
        fun a ha => (hgood a ha (hsub.subset ha)).2, hgranted⟩

theorem Sure.run (h : s.Sure) {schedule : List (Nat × Act)} (hhonest : s.Honest schedule) :
    (s.run schedule).Sure := by
  induction schedule generalizing s with
  | nil => exact h
  | cons x rest ih =>
    obtain ⟨hact, hrest⟩ := hhonest
    exact ih ((turn_step h.tidy x.1 x.2).sure h hact) hrest

namespace Sure

variable (h : s.Sure)

include h

/-- There are no more admissions in hand than slots. -/
theorem length_kept_le : s.kept.length ≤ s.gate.bus.config.capacity := by
  have hslots := h.tidy.gate.reachable.sound.slots
  have hnodup : (s.kept.map fun a => (a.ticket, a.cell)).Nodup := by
    refine List.Nodup.of_map Prod.fst ?_
    rw [List.map_map]
    exact h.once
  have hsub : (s.kept.map fun a => (a.ticket, a.cell)) ⊆ s.gate.bus.holders := by
    intro x hx
    obtain ⟨a, ha, rfl⟩ := List.mem_map.1 hx
    exact h.held a ha
  calc s.kept.length = (s.kept.map fun a => (a.ticket, a.cell)).length := by rw [List.length_map]
    _ ≤ s.gate.bus.holders.length := (List.subperm_of_subset hnodup hsub).length_le
    _ = s.gate.bus.active := hslots.holders_length
    _ ≤ s.gate.bus.config.capacity := hslots.active_le

theorem current_eq {a : Admission} (ha : a ∈ s.kept) :
    s.gate.bus.current = some a.cell.direction :=
  h.tidy.gate.reachable.sound.slots.current_of_holder _ (h.held a ha)

theorem release_kept {a : Admission} (ha : a ∈ s.kept) (hfree : s.callers i = .free) :
    (s.step i (.releaseTicket a.ticket)).1 = .released ∧
      (s.step i (.releaseAdmission a)).1 = .released := by
  have hgave : (s.gate.bus.step (.releaseTicket a.ticket)).1.gaveBack = true := by
    obtain ⟨woken, hok⟩ := Bus.releaseTicket_ok_iff.2 ⟨a.cell, h.held a ha⟩
    simp only [Bus.step, hok]
    rfl
  have hgate : s.gate.releaseTicket a.ticket =
      (.ok (), s.gate.attend (.releaseTicket a.ticket)) := by
    rcases h.tidy.gate.releaseTicket a.ticket with ⟨-, hg⟩ | ⟨hnot, -⟩
    · exact hg
    · rw [hgave] at hnot
      cases hnot
  constructor
  · simp only [step, hfree, hgate]
    rfl
  · simp only [step, hfree, hgate]
    rfl

end Sure

/-- **What honest callers can rely on.**  However many callers share a gate, in whatever order their
stretches come and whenever their time is over: if they give back nothing but admissions in hand,
every admission in hand holds a slot in its own cell, each its own; there are no more of them than
slots; they all move in one direction; and giving one back never fails. -/
theorem clients_run {config : Config} {g : Gate} (hg : Gate.build config = .ok g)
    {schedule : List (Nat × Act)} (hhonest : Honest { gate := g } schedule) :
    let s := run { gate := g } schedule
    (∀ a ∈ s.kept, (a.ticket, a.cell) ∈ s.gate.bus.holders) ∧
      (s.kept.map Admission.ticket).Nodup ∧ s.kept.length ≤ config.capacity ∧
      (∀ a ∈ s.kept, ∀ a' ∈ s.kept, a.cell.direction = a'.cell.direction) ∧
      ∀ i, s.callers i = .free → ∀ a ∈ s.kept,
        (s.step i (.releaseTicket a.ticket)).1 = .released ∧
          (s.step i (.releaseAdmission a)).1 = .released := by
  intro s
  have htidy := tidy_start hg
  have hstart : Sure { gate := g } := by
    refine ⟨htidy, nofun, List.nodup_nil, nofun, ?_⟩
    rintro i t c ⟨limited, hs⟩
    cases hs
  have h : s.Sure := hstart.run hhonest
  have hconfig : s.gate.bus.config = config := by
    have hsame : s.gate.bus.config = g.bus.config := config_run htidy schedule
    rw [hsame]
    unfold Gate.build Bus.build at hg
    split_ifs at hg
    · cases hg
      rfl
    · cases hg
  refine ⟨h.held, h.once, hconfig ▸ h.length_kept_le, fun a ha a' ha' => ?_,
    fun i hfree a ha => h.release_kept ha hfree⟩
  exact Option.some.inj ((h.current_eq ha).symm.trans (h.current_eq ha'))

/-- Three callers and one slot: the second gets it when the first gives it back, and the third goes
away when its time is over. -/
theorem clients_run_one_slot :
    ∃ g, Gate.build ⟨1, .alternate, 1, false⟩ = .ok g ∧
      let schedule : List (Nat × Act) := [(0, .acquire ⟨.outbound, .normal⟩),
        (1, .acquire ⟨.inbound, .normal⟩), (2, .acquireWithin ⟨.outbound, .normal⟩),
        (0, .releaseAdmission ⟨0, ⟨.outbound, .normal⟩, false⟩), (2, .expire (.ofSeconds 5 0)),
        (1, .wake)]
      Honest { gate := g } schedule ∧
        (run { gate := g } schedule).kept = [⟨1, ⟨.inbound, .normal⟩, true⟩] ∧
        (1, ⟨.inbound, .normal⟩) ∈ (run { gate := g } schedule).gate.bus.holders ∧
        ((run { gate := g } schedule).step 2 (.releaseTicket 1)).1 = .released := by
  have hbuild : Gate.build ⟨1, .alternate, 1, false⟩ =
      .ok { bus := Bus.new ⟨1, .alternate, 1, false⟩ } := rfl
  have hhonest : Honest { gate := { bus := Bus.new ⟨1, .alternate, 1, false⟩ } }
      [(0, .acquire ⟨.outbound, .normal⟩), (1, .acquire ⟨.inbound, .normal⟩),
        (2, .acquireWithin ⟨.outbound, .normal⟩),
        (0, .releaseAdmission ⟨0, ⟨.outbound, .normal⟩, false⟩), (2, .expire (.ofSeconds 5 0)),
        (1, .wake)] := ⟨rfl, rfl, rfl, rfl, rfl, rfl, trivial⟩
  obtain ⟨hheld, -, -, -, hrelease⟩ := clients_run hbuild hhonest
  refine ⟨_, hbuild, hhonest, rfl, ?_, ?_⟩
  · exact hheld ⟨1, ⟨.inbound, .normal⟩, true⟩ List.mem_cons_self
  · exact (hrelease 2 rfl ⟨1, ⟨.inbound, .normal⟩, true⟩ List.mem_cons_self).1

end Crowd

end HalfDuplex

import HalfDuplex.Proofs.Exclusion
import HalfDuplex.Proofs.Grants
import HalfDuplex.Proofs.Overtaking

/-!
# How many callers pass a waiting direction

A bus that yields takes no more callers of its running direction while the other one waits.  Only
the choice of a direction on the empty bus pays no attention to that.  So while a direction waits,
callers of the other one get in with the cycles that pass over it, and each cycle brings no more of
them than the bus has slots.

* `Bus.length_dispatchMoves_le` : what a yielding bus lets in while a direction waits for whom it
  lets nobody in.
* `Bus.length_admissions_le` : a full bus for every cycle bounds the admissions of a run.
* `Bus.admissions_past_waiters` : with the streak limit on the cycles, the bound in numbers.

Without yielding there is no bound: the running direction could be topped up for ever.
-/

namespace HalfDuplex

namespace Bus

variable {b : Bus} {d : Direction} {m : Move} {ms : List Move} {op : Op} {ops : List Op}
  {t : Ticket} {c : Cell}

/-! ### What serving a direction does -/

theorem length_serveMoves_le (d : Direction) (why : Option Reason) (room : Nat) (b : Bus) :
    (serveMoves d why room b).length ≤ room := by
  induction room generalizing b with
  | zero => exact Nat.le_refl _
  | succ room ih =>
    cases hp : b.popWaiter? d with
    | none => simp only [serveMoves, hp, List.length_nil, Nat.zero_le]
    | some next =>
      obtain ⟨t, c, b'⟩ := next
      simp only [serveMoves, hp, List.length_cons]
      exact Nat.succ_le_succ (ih _)

theorem admitted_of_mem_serveMoves {why : Option Reason} {room : Nat}
    (hm : m ∈ serveMoves d why room b) : ∃ t c, m.admitted? = some (t, c) ∧ c.direction = d := by
  induction room generalizing b with
  | zero => cases hm
  | succ room ih =>
    cases hp : b.popWaiter? d with
    | none => simp [serveMoves, hp] at hm
    | some next =>
      obtain ⟨t, c, b'⟩ := next
      simp only [serveMoves, hp] at hm
      rcases List.mem_cons.1 hm with rfl | hm
      · exact ⟨t, c, rfl, (popWaiter?_eq_some hp).1⟩
      · exact ih hm

theorem mem_waiting_boarding (hms : ∀ m ∈ ms, ∃ t c why, m = Move.board t c why)
    (ht : t ∈ (b.performAll ms).waiting.get c) : t ∈ b.waiting.get c := by
  induction ms generalizing b with
  | nil => exact ht
  | cons m ms ih =>
    rw [List.forall_mem_cons] at hms
    obtain ⟨⟨u, c', why, rfl⟩, hms⟩ := hms
    have hu := ih hms ht
    rw [waiting_perform, PerCell.get_set] at hu
    split_ifs at hu with hc
    · subst hc
      exact List.mem_of_mem_tail hu
    · exact hu

theorem hasWaiters_of_dispatched (hw : (b.performAll b.dispatchMoves).hasWaiters d = true) :
    b.hasWaiters d = true := by
  obtain ⟨p, hp⟩ := hasWaiters_eq_true.1 hw
  obtain ⟨t, ht⟩ := List.exists_mem_of_ne_nil _ hp
  have hbefore := mem_waiting_boarding (fun _ => board_of_mem_dispatchMoves) ht
  exact hasWaiters_eq_true.2 ⟨p, List.ne_nil_of_mem hbefore⟩

/-! ### A yielding bus on which a direction waits -/

/-- A yielding bus does not top up the direction whose rival waits. -/
theorem yields_opposite (hy : b.config.yieldToOpposite = true) (hw : b.hasWaiters d = true) :
    b.yields d.opposite = true := by
  rw [yields_eq_true, Direction.opposite_opposite]
  exact ⟨hy, hw⟩

/-- **What a yielding bus lets in while a direction waits** for which it lets nobody in: a full bus
with a new cycle, and nobody without. -/
theorem length_dispatchMoves_le (h : b.Sound) (hy : b.config.yieldToOpposite = true)
    (hw : b.hasWaiters d = true)
    (hno : ∀ x ∈ b.dispatchMoves.filterMap Move.admitted?, x.2.direction ≠ d) :
    b.dispatchMoves.length ≤ b.config.capacity * (b.begun b.dispatchMoves).length := by
  cases hc : b.current with
  | some e =>
    suffices hnil : b.dispatchMoves = [] by
      rw [hnil]
      exact Nat.zero_le _
    refine List.eq_nil_iff_forall_not_mem.2 fun m hm => ?_
    have hserve := hm
    simp only [dispatchMoves, hc] at hserve
    split_ifs at hserve with hye
    · cases hserve
    -- the bus would be topped up, but not for the other direction, to which it yields
    · obtain ⟨t, c, ha, rfl⟩ := admitted_of_mem_serveMoves hserve
      have hne := hno _ (List.mem_filterMap.2 ⟨m, hm, ha⟩)
      rw [Direction.eq_opposite_of_ne hne] at hye
      exact hye (yields_opposite hy hw)
  | none =>
    have h0 : b.active = 0 := h.slots.current_eq_none.1 hc
    rw [begun_dispatchMoves_empty h h0]
    cases hn : b.nextTurn with
    | none => simp only [dispatchMoves, hc, hn, List.length_nil, Nat.zero_le]
    | some turn =>
      simp only [dispatchMoves, hc, hn]
      calc (serveMoves turn.1 (some turn.2) (b.config.capacity - b.active) b).length
          ≤ b.config.capacity - b.active := length_serveMoves_le ..
        _ ≤ b.config.capacity := Nat.sub_le _ _
        _ = b.config.capacity * 1 := (Nat.mul_one _).symm

theorem length_departure_le (h : b.Sound) (hy : b.config.yieldToOpposite = true)
    (hm : b.Legal m) (hnone : m.admitted? = none)
    (hw : (b.performAll (m :: (b.perform m).dispatchMoves)).hasWaiters d = true)
    (hno : ∀ x ∈ (m :: (b.perform m).dispatchMoves).filterMap Move.admitted?,
      x.2.direction ≠ d) :
    ((m :: (b.perform m).dispatchMoves).filterMap Move.admitted?).length ≤
      b.config.capacity * (b.begun (m :: (b.perform m).dispatchMoves)).length := by
  rw [List.filterMap_cons_none hnone] at hno ⊢
  rw [begun_cons, cycle?_of_not_admitted hnone, ← config_perform b m]
  have hle := length_dispatchMoves_le (h.perform hm) (by rw [config_perform]; exact hy)
    (hasWaiters_of_dispatched hw) hno
  exact Nat.le_trans (List.length_filterMap_le _ _) hle

/-- While a direction waits and nobody of it is admitted, an operation admits a full bus for a new
cycle, and nobody without. -/
theorem length_admitted_moves_le (h : b.Sound) (hs : b.Settled)
    (hy : b.config.yieldToOpposite = true) (hw : b.hasWaiters d = true)
    (hw' : (b.step op).2.hasWaiters d = true)
    (hno : ∀ x ∈ (b.moves op).filterMap Move.admitted?, x.2.direction ≠ d) :
    ((b.moves op).filterMap Move.admitted?).length ≤
      b.config.capacity * (b.begun (b.moves op)).length := by
  have hrow := b.row_moves op
  rw [step_eq_performAll] at hw'
  generalize b.moves op = ms at hw' hno hrow ⊢
  cases hrow with
  | nothing | enqueue | collect | refuse => exact Nat.zero_le _
  | @arrive c hacc =>
    exfalso
    have hne : c.direction ≠ d := hno _ (List.mem_singleton_self _)
    rcases accepts_eq_true.1 hacc with h0 | ⟨-, -, -, -, hyields⟩
    -- nobody waits on an empty bus, and a busy one yields to the direction that waits
    · exact hs.active_ne_zero hw h0
    · rw [Direction.eq_opposite_of_ne hne, yields_opposite hy hw] at hyields
      cases hyields
  | vacate hmem => exact length_departure_le h hy (.vacate hs hmem) rfl hw' hno
  | leave hmem => exact length_departure_le h hy (.leave hs hmem) rfl hw' hno

/-! ### Runs -/

theorem admitted_of_begun {k : Cycle} (hk : k ∈ b.begun ms) :
    ∃ x ∈ ms.filterMap Move.admitted?, x.2.direction = k.direction := by
  induction ms generalizing b with
  | nil => cases hk
  | cons m ms ih =>
    rw [begun_cons, List.mem_append, Option.mem_toList] at hk
    rcases hk with hk | hk
    · cases m with
      | arrive t c =>
        rw [cycle?_arrive] at hk
        split_ifs at hk
        cases hk
        exact ⟨(t, c), List.mem_cons_self, rfl⟩
      | board t c why =>
        rw [cycle?_board] at hk
        split_ifs at hk
        cases hk
        exact ⟨(t, c), List.mem_cons_self, rfl⟩
      | enqueue | collect | vacate | leave | refuse =>
        rw [cycle?_of_not_admitted rfl] at hk
        cases hk
    · obtain ⟨x, hx, hd⟩ := ih hk
      exact ⟨x, ((List.sublist_cons_self m ms).filterMap _).mem hx, hd⟩

/-- **A full bus for every cycle** is all that a yielding bus admits while a direction waits of
which nobody is admitted. -/
theorem length_admissions_le (h : b.Sound) (hs : b.Settled)
    (hy : b.config.yieldToOpposite = true)
    (hwait : ∀ s ∈ b.stages ops, s.hasWaiters d = true)
    (hno : ∀ x ∈ b.admissions ops, x.2.direction ≠ d) :
    (b.admissions ops).length ≤ b.config.capacity * (b.cycles ops).length := by
  induction ops generalizing b with
  | nil => exact Nat.zero_le _
  | cons op ops ih =>
    rw [stages, List.forall_mem_cons] at hwait
    have hsplit : b.admissions (op :: ops) =
        (b.moves op).filterMap Move.admitted? ++ (b.step op).2.admissions ops :=
      List.filterMap_append
    rw [hsplit, List.forall_mem_append] at hno
    have hfirst := length_admitted_moves_le h hs hy hwait.1
      (hwait.2 _ (mem_stages_self _ ops)) hno.1
    have hrest := ih (h.step hs op) (hs.step h op) (by rw [config_step]; exact hy) hwait.2 hno.2
    rw [config_step] at hrest
    rw [hsplit, cycles_cons, List.length_append, List.length_append, Nat.mul_add]
    exact Nat.add_le_add hfirst hrest

/-- **How many callers pass a waiting direction.**  On a yielding bus that alternates, in a run
during which direction `d` always has a waiter and nobody of it is admitted, the tickets of the
other direction that the answers report as admitted, on arrival or from a queue, fill the bus at
most once more than the streak limit says. -/
theorem admissions_past_waiters (h : b.Reachable) (hfair : b.config.fairness = .alternate)
    (hyield : b.config.yieldToOpposite = true)
    (hwait : ∀ s ∈ b.stages ops, s.hasWaiters d = true)
    (hno : ∀ x ∈ b.admissions ops, x.2.direction ≠ d) :
    (b.run ops).1.flatMap Answer.admitted = (b.admissions ops).map Prod.fst ∧
      (b.admissions ops).countP (fun x => x.2.direction = d.opposite) ≤
        (b.config.streakLimit + 1) * b.config.capacity := by
  have hnone : ∀ k ∈ b.cycles ops, k.direction ≠ d := by
    intro k hk
    obtain ⟨x, hx, hd⟩ := admitted_of_begun hk
    exact hd ▸ hno x hx
  have hcycles : (b.cycles ops).length ≤ b.service.budget d b.config.streakLimit := by
    refine length_cycles_le _ h.sound h.settled hwait (fun _ hs => hs) ?_ hnone
    intro s hc hs r hn
    refine Service.budget_after_lt fun hlast => ?_
    obtain ⟨rfl, hlt, -⟩ := nextTurn_again (hc ▸ hfair) hs hlast hn
    exact ⟨rfl, hc ▸ hlt⟩
  refine ⟨by rw [admitted_run, admissions, List.map_filterMap], ?_⟩
  calc (b.admissions ops).countP (fun x => x.2.direction = d.opposite)
      ≤ (b.admissions ops).length := List.countP_le_length
    _ ≤ b.config.capacity * (b.cycles ops).length :=
        length_admissions_le h.sound h.settled hyield hwait hno
    _ ≤ b.config.capacity * (b.config.streakLimit + 1) :=
        Nat.mul_le_mul_left _ (Nat.le_trans hcycles Service.budget_le)
    _ = (b.config.streakLimit + 1) * b.config.capacity := Nat.mul_comm _ _

/-- The bound is attained: two slots and a streak limit of one let four outbound callers pass an
inbound one, two because it is their turn and two because they are elevated. -/
theorem admissions_past_waiters_four : ∃ b ops, Bus.Reachable b ∧
    b.config = ⟨2, .alternate, 1, true⟩ ∧
    (∀ s ∈ b.stages ops, s.hasWaiters .inbound = true) ∧
    (∀ x ∈ b.admissions ops, x.2.direction ≠ .inbound) ∧
    (b.admissions ops).countP (fun x => x.2.direction = .outbound) = 4 := by
  refine ⟨((Bus.new ⟨2, .alternate, 1, true⟩).run [.request ⟨.inbound, .normal⟩,
      .request ⟨.outbound, .normal⟩, .request ⟨.outbound, .normal⟩,
      .request ⟨.inbound, .normal⟩]).2,
    [.releaseTicket 0, .request ⟨.outbound, .elevated⟩, .releaseTicket 1,
      .request ⟨.outbound, .elevated⟩, .releaseTicket 2], ⟨by decide, _, rfl⟩, rfl, by decide,
    by decide, ?_⟩
  refine Nat.le_antisymm ?_ (by decide)
  exact (admissions_past_waiters (d := .inbound) ⟨by decide, _, rfl⟩ rfl rfl (by decide)
    (by decide)).2

end Bus

end HalfDuplex

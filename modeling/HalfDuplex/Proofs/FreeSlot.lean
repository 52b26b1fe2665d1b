import HalfDuplex.Proofs.Rest

/-!
# Free slots and waiters

Between operations no slot stays free for want of a wake-up.  A caller of the running direction
waits beside a free slot only where the bus yields, and then callers of the other direction wait
too: they are the ones it yields to.

* `Bus.Settled.dispatch_nobody` : on a settled bus nobody is left to let in.
* `Bus.waiters_beside_free_slot` : who may wait beside a free slot in a run.

A withdrawal may take away the very waiter to whom the bus yielded.  That is why it lets in callers
like a release does.
-/

namespace HalfDuplex

namespace Bus

variable {b : Bus}

theorem popWaiter?_of_no_waiters {d : Direction} (h : b.hasWaiters d = false) :
    b.popWaiter? d = none := by
  have hnil := hasWaiters_eq_false.1 h
  simp only [popWaiter?, hnil]

theorem nextTurn_of_no_waiters (h : ∀ c, b.waiting.get c = []) : b.nextTurn = none := by
  have hnone : ∀ d, b.hasWaiters d = false := fun d => hasWaiters_eq_false.2 fun p => h ⟨d, p⟩
  simp only [nextTurn, hnone]

theorem Settled.dispatchMoves_eq_nil (hs : b.Settled) (h : b.Sound) : b.dispatchMoves = [] := by
  cases hc : b.current with
  | none =>
    have h0 : b.active = 0 := h.slots.current_eq_none.1 hc
    simp only [dispatchMoves, hc, nextTurn_of_no_waiters (hs.idle h0)]
  | some d =>
    cases hy : b.yields d with
    | true => simp only [dispatchMoves, hc, hy, ↓reduceIte]
    | false =>
      simp only [dispatchMoves, hc, hy, Bool.false_eq_true, ↓reduceIte]
      -- the bus does not yield, so it is full or nobody of its direction waits
      rcases Nat.eq_or_lt_of_le h.slots.active_le with hfull | hroom
      · rw [hfull, Nat.sub_self, serveMoves]
      · have hnone := hs.no_waiters hc hroom hy
        obtain ⟨room, hsub⟩ := Nat.exists_eq_add_one.2 (Nat.sub_pos_of_lt hroom)
        rw [hsub, serveMoves, popWaiter?_of_no_waiters hnone]

theorem Settled.dispatch_nobody (hs : b.Settled) (h : b.Sound) : b.dispatch = ([], b) := by
  rw [dispatch_eq, hs.dispatchMoves_eq_nil h]
  rfl

/-- **Who may wait beside a free slot.**  While a bus of a run is busy, it runs in some direction,
and callers of that direction wait beside a free slot only if the bus yields and callers of the
other direction wait too.  So on a bus that does not yield, a waiter of the running direction means
that all slots are held.  Nobody is left to let in. -/
theorem waiters_beside_free_slot (h : b.Reachable) :
    (0 < b.active → ∃ d, b.current = some d ∧
        (b.active < b.config.capacity → b.hasWaiters d = true →
          b.config.yieldToOpposite = true ∧ b.hasWaiters d.opposite = true)) ∧
      (b.config.yieldToOpposite = false → ∀ d, b.current = some d → b.hasWaiters d = true →
        b.active = b.config.capacity) ∧
      b.dispatch = ([], b) := by
  have hbusy := h.settled.busy
  refine ⟨fun hpos => ?_, fun hyield d hd hw => ?_, h.settled.dispatch_nobody h.sound⟩
  · cases hc : b.current with
    | none => exact absurd (h.sound.slots.current_eq_none.1 hc) (Nat.ne_of_gt hpos)
    | some d => exact ⟨d, rfl, fun hroom hw => yields_eq_true.1 (hbusy d hc hroom hw)⟩
  · refine Nat.le_antisymm h.sound.slots.active_le (Nat.not_lt.1 fun hroom => ?_)
    rw [(yields_eq_true.1 (hbusy d hd hroom hw)).1] at hyield
    cases hyield

/-- A yielding bus with a free slot: outbound callers wait because an inbound one does. -/
theorem waiters_beside_free_slot_one :
    ∃ b : Bus, b.Reachable ∧ 0 < b.active ∧ b.active < b.config.capacity ∧
      b.current = some .outbound ∧ b.hasWaiters .outbound = true ∧
      b.hasWaiters .inbound = true ∧ b.dispatch = ([], b) := by
  refine ⟨((Bus.new ⟨2, .alternate, 1, true⟩).run [.request ⟨.outbound, .normal⟩,
    .request ⟨.inbound, .normal⟩, .request ⟨.outbound, .elevated⟩]).2, ⟨by decide, _, rfl⟩,
    by decide, by decide, by decide, by decide, ?_⟩
  obtain ⟨hbusy, -, hrest⟩ := waiters_beside_free_slot
    (b := ((Bus.new ⟨2, .alternate, 1, true⟩).run [.request ⟨.outbound, .normal⟩,
      .request ⟨.inbound, .normal⟩, .request ⟨.outbound, .elevated⟩]).2) ⟨by decide, _, rfl⟩
  obtain ⟨d, hd, hwait⟩ := hbusy (by decide)
  obtain rfl : d = .outbound := Option.some.inj (hd.symm.trans (by decide))
  exact ⟨(hwait (by decide) (by decide)).2, hrest⟩

end Bus

end HalfDuplex

import HalfDuplex.Proofs.Consistent

/-!
# Who is accepted is a matter of direction

The running bus tests an arriving request against the queue of its cell, and a normal request
against the elevated queue as well.  It does not look at the normal queue before it accepts an
elevated request.  There are two simpler rules: one that asks for the direction only, and a plain
one that knows elevated waiters as the only obstacle.

* `Bus.admitsPlainly` : the plain rule.
* `Bus.admitsPlainly_of_accepts` : on any bus, whoever is accepted is taken by the plain rule.
* `Bus.Settled.accepts_iff` : on a settled bus the test asks for the direction only.
* `Bus.accepts_by_direction` : on the buses of a run, the test is the rule by direction, and without
  yielding it is the plain rule too.

On an arbitrary bus all three differ.  They agree where nobody waits beside a free slot unless the
bus yields.
-/

namespace HalfDuplex

namespace Bus

/-- The plain rule: an empty bus takes anybody, and a running bus takes callers of its own direction
while it has room, but no normal one past an elevated waiter. -/
def admitsPlainly (b : Bus) (c : Cell) : Bool :=
  b.active = 0 ||
    (b.current = some c.direction && b.active < b.config.capacity
      && !(c.priority = .normal && b.hasWaitersIn ⟨c.direction, .elevated⟩))

variable {b : Bus} {c : Cell}

theorem admitsPlainly_eq_true : b.admitsPlainly c = true ↔ b.active = 0 ∨
    b.current = some c.direction ∧ b.active < b.config.capacity ∧
      (c.priority = .normal → b.waiting.get ⟨c.direction, .elevated⟩ = []) := by
  simp [admitsPlainly, hasWaitersIn, and_assoc, imp_iff_not_or]

theorem admitsPlainly_of_accepts (h : b.accepts c = true) : b.admitsPlainly c = true := by
  rw [admitsPlainly_eq_true]
  refine (accepts_eq_true.1 h).imp_right ?_
  rintro ⟨hc, hroom, -, helevated, -⟩
  exact ⟨hc, hroom, helevated⟩

namespace Settled

variable (hs : b.Settled)

include hs

theorem isIdle_iff_active : b.isIdle = true ↔ b.active = 0 := by
  simp only [isIdle, Bool.and_eq_true, decide_eq_true_eq, totalWaiting_eq_zero]
  exact and_iff_left_of_imp hs.idle

/-- A settled bus that runs accepts a request exactly if it has room for its direction, nobody of
that direction waits, and the bus does not yield to the other one. -/
theorem accepts_iff : b.accepts c = true ↔ b.active = 0 ∨
    b.current = some c.direction ∧ b.active < b.config.capacity ∧
      b.hasWaiters c.direction = false ∧ b.yields c.direction = false := by
  rw [accepts_eq_true]
  refine or_congr_right (and_congr_right fun hc => and_congr_right fun hroom => ?_)
  constructor
  · rintro ⟨-, -, hy⟩
    exact ⟨hs.no_waiters hc hroom hy, hy⟩
  · rintro ⟨hnone, hy⟩
    have hnil := hasWaiters_eq_false.1 hnone
    exact ⟨hnil c.priority, fun _ => hnil .elevated, hy⟩

theorem accepts_eq_admitsPlainly (hyield : b.config.yieldToOpposite = false) (c : Cell) :
    b.accepts c = b.admitsPlainly c := by
  rw [Bool.eq_iff_iff]
  refine ⟨admitsPlainly_of_accepts, fun hplain => hs.accepts_iff.2 ?_⟩
  refine (admitsPlainly_eq_true.1 hplain).imp_right ?_
  rintro ⟨hc, hroom, -⟩
  have hy : b.yields c.direction = false := by rw [yields, hyield, Bool.false_and]
  exact ⟨hc, hroom, hs.no_waiters hc hroom hy, hy⟩

end Settled

/-- **Who is accepted is a matter of direction.**  On every bus of a run a request is accepted
exactly if the bus is idle, or it runs in the request's direction with room left, nobody of that
direction waits, whatever the priority, and the bus does not yield to waiters of the other one.  So
the priority of the request makes no difference, and on a bus that never yields the test is the
plain rule. -/
theorem accepts_by_direction (h : b.Reachable) (d : Direction) :
    (∀ p, b.accepts ⟨d, p⟩ = true ↔ b.isIdle = true ∨
        b.current = some d ∧ b.active < b.config.capacity ∧ (∀ q, b.waiting.get ⟨d, q⟩ = []) ∧
          ¬ (b.config.yieldToOpposite = true ∧ b.hasWaiters d.opposite = true)) ∧
      (∀ p q, b.accepts ⟨d, p⟩ = b.accepts ⟨d, q⟩) ∧
      (b.config.yieldToOpposite = false → ∀ p, b.accepts ⟨d, p⟩ = b.admitsPlainly ⟨d, p⟩) := by
  have hs := h.settled
  have hrule : ∀ p, b.accepts ⟨d, p⟩ = true ↔ b.active = 0 ∨
      b.current = some d ∧ b.active < b.config.capacity ∧ b.hasWaiters d = false ∧
        b.yields d = false := fun _ => hs.accepts_iff
  refine ⟨fun p => ?_, fun p q => ?_, fun hyield p => hs.accepts_eq_admitsPlainly hyield _⟩
  · rw [hrule, hs.isIdle_iff_active, hasWaiters_eq_false, ← yields_eq_true, Bool.not_eq_true]
  · rw [Bool.eq_iff_iff, hrule, hrule]

/-- A bus with two slots, one of them held: outbound requests of either priority are accepted, and
inbound ones are not. -/
theorem accepts_by_direction_two_slots : ∃ b : Bus, b.Reachable ∧
    b.config.yieldToOpposite = false ∧ b.waiting.get ⟨.inbound, .normal⟩ = [1] ∧
    b.accepts ⟨.outbound, .elevated⟩ = true ∧ b.accepts ⟨.outbound, .normal⟩ = true ∧
    b.admitsPlainly ⟨.outbound, .normal⟩ = true ∧ b.accepts ⟨.inbound, .elevated⟩ = false := by
  have hreach : Reachable ((Bus.new ⟨2, .alternate, 1, false⟩).run [.request ⟨.outbound, .normal⟩,
    .request ⟨.inbound, .normal⟩]).2 := ⟨by decide, _, rfl⟩
  obtain ⟨hrule, hpriority, hplain⟩ := accepts_by_direction hreach .outbound
  have hnobody : ∀ q, ((Bus.new ⟨2, .alternate, 1, false⟩).run [.request ⟨.outbound, .normal⟩,
      .request ⟨.inbound, .normal⟩]).2.waiting.get ⟨.outbound, q⟩ = [] := by
    intro q
    cases q <;> rfl
  have helevated := (hrule .elevated).2 (Or.inr ⟨rfl, by decide, hnobody, by decide⟩)
  have hnormal := (hpriority .normal .elevated).trans helevated
  exact ⟨_, hreach, rfl, rfl, helevated, hnormal, (hplain rfl .normal).symm.trans hnormal, rfl⟩

/-- A bus that no run leads to: a normal request waits beside a free slot.  The test keeps a normal
request behind it and lets an elevated one pass, and the plain rule takes both. -/
example :
    let b : Bus := { config := .standard, active := 1, current := some .outbound,
                     waiting := (PerCell.replicate []).set ⟨.outbound, .normal⟩ [0] }
    b.accepts ⟨.outbound, .normal⟩ = false ∧ b.accepts ⟨.outbound, .elevated⟩ = true ∧
      b.admitsPlainly ⟨.outbound, .normal⟩ = true := by
  decide

end Bus

end HalfDuplex

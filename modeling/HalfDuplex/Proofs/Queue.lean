import HalfDuplex.Bus.Operations
import Mathlib.Tactic.Common

/-!
# Who is served next

The next waiter of a direction is the oldest elevated one, or the oldest normal one when no
elevated one waits.

* `Bus.Front` : this ticket is the next waiter of its direction.
* `Bus.popWaiter?_eq_some` : taking a waiter from the queues takes the one at the front, and nothing
  else changes.
* `Bus.hasWaiters_eq_true`, `Bus.hasWaiters_eq_false` : the tests on queues in terms of tickets.
-/

namespace HalfDuplex

namespace Bus

/-- Ticket `t` of cell `c` is the next waiter of its direction. -/
structure Front (b : Bus) (t : Ticket) (c : Cell) : Prop where
  /-- It is the oldest of its cell. -/
  head : b.waiting.get c = t :: (b.waiting.get c).tail
  /-- A normal ticket has no elevated one before it. -/
  elevated_first : c.priority = .normal → b.waiting.get ⟨c.direction, .elevated⟩ = []

variable {b : Bus}

theorem Front.mem {t : Ticket} {c : Cell} (h : b.Front t c) : t ∈ b.waiting.get c := by
  rw [h.head]
  exact List.mem_cons_self

theorem Front.lt_of_mem_tail {t u : Ticket} {c : Cell} (h : b.Front t c)
    (hsorted : (b.waiting.get c).Pairwise (· < ·)) (hu : u ∈ (b.waiting.get c).tail) : t < u := by
  rw [h.head] at hsorted
  exact (List.pairwise_cons.1 hsorted).1 u hu

theorem hasWaitersIn_eq_true {c : Cell} : b.hasWaitersIn c = true ↔ b.waiting.get c ≠ [] := by
  simp [hasWaitersIn]

theorem hasWaiters_eq_true {d : Direction} :
    b.hasWaiters d = true ↔ ∃ p, b.waiting.get ⟨d, p⟩ ≠ [] := by
  simp only [hasWaiters, Bool.or_eq_true, hasWaitersIn_eq_true]
  constructor
  · rintro (h | h)
    · exact ⟨.elevated, h⟩
    · exact ⟨.normal, h⟩
  · rintro ⟨p, h⟩
    cases p with
    | elevated => exact Or.inl h
    | normal => exact Or.inr h

theorem hasWaiters_eq_false {d : Direction} :
    b.hasWaiters d = false ↔ ∀ p, b.waiting.get ⟨d, p⟩ = [] := by
  rw [← Bool.not_eq_true, hasWaiters_eq_true]
  push Not
  rfl

theorem hasWaiters_congr {b' : Bus} {d : Direction}
    (h : ∀ p, b'.waiting.get ⟨d, p⟩ = b.waiting.get ⟨d, p⟩) : b'.hasWaiters d = b.hasWaiters d := by
  simp only [hasWaiters, hasWaitersIn, h]

theorem popWaiter?_eq_some {d : Direction} {t : Ticket} {c : Cell} {b' : Bus}
    (h : b.popWaiter? d = some (t, c, b')) :
    c.direction = d ∧ b.Front t c ∧
      b' = { b with waiting := b.waiting.set c (b.waiting.get c).tail } := by
  unfold popWaiter? at h
  split at h
  · rename_i u rest _ he
    obtain ⟨rfl, rfl, rfl⟩ := h
    refine ⟨rfl, ⟨?_, ?_⟩, ?_⟩
    · rw [he]; rfl
    · simp
    · rw [he]; rfl
  · rename_i u rest he hn
    obtain ⟨rfl, rfl, rfl⟩ := h
    refine ⟨rfl, ⟨?_, ?_⟩, ?_⟩
    · rw [hn]; rfl
    · exact fun _ => he
    · rw [hn]; rfl
  · cases h

theorem popWaiter?_eq_none {d : Direction} (h : b.popWaiter? d = none) :
    b.hasWaiters d = false := by
  unfold popWaiter? at h
  split at h
  · cases h
  · cases h
  · rename_i he hn
    simp [hasWaiters, hasWaitersIn, he, hn]

/-! ### The choice of a direction -/

theorem yields_eq_true {d : Direction} :
    b.yields d = true ↔ b.config.yieldToOpposite = true ∧ b.hasWaiters d.opposite = true := by
  simp [yields]

theorem nextTurn_eq_none (h : b.nextTurn = none) (c : Cell) : b.waiting.get c = [] := by
  unfold nextTurn at h
  split at h
  · rename_i ho hi
    obtain ⟨d, p⟩ := c
    cases d with
    | outbound => exact hasWaiters_eq_false.1 ho p
    | inbound => exact hasWaiters_eq_false.1 hi p
  all_goals cases h

theorem hasWaiters_of_nextTurn {d : Direction} {r : Reason} (h : b.nextTurn = some (d, r)) :
    b.hasWaiters d = true := by
  unfold nextTurn at h
  split at h
  · cases h
  · rename_i ho hi; cases h; exact ho
  · rename_i ho hi; cases h; exact hi
  · rename_i ho hi; cases d <;> assumption

/-- Between two directions with waiters the bus decides as between rivals. -/
theorem nextTurn_of_waiters {d : Direction} (h : b.hasWaiters d = true)
    (h' : b.hasWaiters d.opposite = true) : b.nextTurn = some b.contested := by
  unfold nextTurn
  cases d with
  | outbound =>
    obtain h' : b.hasWaiters .inbound = true := h'
    rw [h, h']
  | inbound =>
    obtain h' : b.hasWaiters .outbound = true := h'
    rw [h, h']

theorem contested_of_reason {d : Direction} {r : Reason} (h : b.nextTurn = some (d, r))
    (hr : r ≠ .onlyWaiting) : b.contested = (d, r) := by
  unfold nextTurn at h
  split at h
  case h_1 => cases h
  case h_2 | h_3 =>
    cases h
    exact absurd rfl hr
  case h_4 => exact Option.some.inj h

/-- Against a preferred direction, age does not count. -/
theorem contested_ne_oldestFirst {d : Direction} (hp : b.preferred? = some d) :
    b.contested.2 ≠ .oldestFirst := by
  intro h
  simp only [contested, hp] at h
  split_ifs at h

/-- Without a preferred direction, the alternating rule turns away from the last one. -/
theorem contested_alternate {d : Direction} (hp : b.preferred? = none)
    (hfair : b.config.fairness = .alternate) (hlast : b.lastServed = some d) :
    b.contested = (d.opposite, .alternation) := by
  simp only [contested, hp, hfair, hlast]

/-- The preferred direction is the only one with elevated waiters. -/
theorem preferred?_eq_some {d : Direction} (h : b.preferred? = some d) :
    b.hasWaitersIn ⟨d, .elevated⟩ = true ∧ b.hasWaitersIn ⟨d.opposite, .elevated⟩ = false := by
  unfold preferred? at h
  split at h
  · rename_i ho hi
    cases h
    exact ⟨ho, hi⟩
  · rename_i ho hi
    cases h
    exact ⟨hi, ho⟩
  · cases h

theorem preferred?_eq_none (h : b.preferred? = none) (d : Direction) :
    b.hasWaitersIn ⟨d.opposite, .elevated⟩ = b.hasWaitersIn ⟨d, .elevated⟩ := by
  have hsame : b.hasWaitersIn ⟨.outbound, .elevated⟩ = b.hasWaitersIn ⟨.inbound, .elevated⟩ := by
    unfold preferred? at h
    generalize b.hasWaitersIn ⟨.outbound, .elevated⟩ = o at h ⊢
    generalize b.hasWaitersIn ⟨.inbound, .elevated⟩ = i at h ⊢
    decide +revert
  cases d with
  | outbound => exact hsame.symm
  | inbound => exact hsame

end Bus

end HalfDuplex

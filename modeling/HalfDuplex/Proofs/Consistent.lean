import HalfDuplex.Bus.Check
import HalfDuplex.Proofs.Rest

/-!
# The bus passes its own check

`Bus.Consistent` says in plain terms what `Bus.check` looks for.

* `Bus.check_eq_none_iff` : on every bus whose held counts add up to a machine word, the check finds
  nothing exactly when the bus is consistent.
* `Bus.check_run` : every bus that a run leads to is consistent and passes its own check.
-/

namespace HalfDuplex

namespace Bus

/-- What a bus records fits together. -/
structure Consistent (b : Bus) : Prop where
  active_le : b.active ≤ b.config.capacity
  /-- The four held counts add up to the number of held slots. -/
  held_sum : b.held.sum = b.active
  /-- The holders of each cell are as many as its held count. -/
  holders_eq : ∀ c, (b.holdersIn c).length = b.held.get c
  current_eq_none : b.current = none ↔ b.active = 0
  /-- No slot is held against the running direction. -/
  one_direction : ∀ d, b.current = some d → ∀ p, b.held.get ⟨d.opposite, p⟩ = 0
  /-- Nobody waits on an empty bus. -/
  nobody_stranded : b.active = 0 → ∀ c, b.waiting.get c = []
  /-- No ticket both waits and has a grant. -/
  not_granted : ∀ c, ∀ t ∈ b.waiting.get c, t ∉ b.granted
  /-- Every queue is in arrival order. -/
  sorted : ∀ c, (b.waiting.get c).Pairwise (· < ·)

variable {b : Bus}

/-! ### What each part of the check finds -/

theorem inOrder_eq_true {l : List Ticket} : inOrder l = true ↔ l.Pairwise (· < ·) := by
  induction l with
  | nil => simp [inOrder]
  | cons t l ih =>
    cases l with
    | nil => simp [inOrder]
    | cons u l =>
      simp only [inOrder, Bool.and_eq_true, decide_eq_true_eq, ih]
      constructor
      · rintro ⟨htu, hl⟩
        refine List.pairwise_cons.2 ⟨?_, hl⟩
        intro v hv
        rcases List.mem_cons.1 hv with rfl | hv
        · exact htu
        · exact Nat.lt_trans htu ((List.pairwise_cons.1 hl).1 v hv)
      · intro h
        obtain ⟨ht, hl⟩ := List.pairwise_cons.1 h
        exact ⟨ht u List.mem_cons_self, hl⟩

theorem holderFlaw?_eq_none {c : Cell} :
    b.holderFlaw? c = none ↔ (b.holdersIn c).length = b.held.get c := by
  simp [holderFlaw?]

theorem directionFlaw?_eq_none : b.directionFlaw? = none ↔
    (b.current = none ↔ b.active = 0) ∧
      ∀ d, b.current = some d → ∀ p, b.held.get ⟨d.opposite, p⟩ = 0 := by
  unfold directionFlaw?
  cases hc : b.current with
  | none => simp
  | some d =>
    by_cases h0 : b.active = 0
    · simp [h0]
    · simp only [h0, ↓reduceIte, ite_eq_left_iff, reduceCtorEq, imp_false, not_not, iff_self,
        true_and, Option.some.injEq, forall_eq']
      constructor
      · intro hsum p
        cases p <;> omega
      · intro hall
        rw [hall, hall]

theorem totalWaiting_eq_zero : b.totalWaiting = 0 ↔ ∀ c, b.waiting.get c = [] := by
  have hget : ∀ c, b.waitingCounts.get c = (b.waiting.get c).length := fun c => PerCell.get_map ..
  constructor
  · intro h c
    rw [← List.length_eq_zero_iff, ← hget]
    rw [totalWaiting, PerCell.sum] at h
    obtain ⟨d, p⟩ := c
    cases d <;> cases p <;> simp only [PerCell.get] <;> omega
  · intro h
    simp only [totalWaiting, waitingCounts, PerCell.sum, PerCell.map]
    have e1 := h ⟨.outbound, .elevated⟩
    have e2 := h ⟨.outbound, .normal⟩
    have e3 := h ⟨.inbound, .elevated⟩
    have e4 := h ⟨.inbound, .normal⟩
    simp only [PerCell.get] at e1 e2 e3 e4
    rw [e1, e2, e3, e4]
    rfl

theorem strandedFlaw?_eq_none :
    b.strandedFlaw? = none ↔ (b.active = 0 → ∀ c, b.waiting.get c = []) := by
  simp [strandedFlaw?, totalWaiting_eq_zero]

theorem queueFlaw?_eq_none {c : Cell} : b.queueFlaw? c = none ↔
    (∀ t ∈ b.waiting.get c, t ∉ b.granted) ∧ (b.waiting.get c).Pairwise (· < ·) := by
  unfold queueFlaw?
  split
  -- a ticket that waits and has a grant is reported first
  · rename_i t ht
    have hmem := List.mem_of_find?_eq_some ht
    have hgranted := List.find?_some ht
    simp only [decide_eq_true_eq] at hgranted
    simp only [reduceCtorEq, false_iff, not_and]
    exact fun hnot => absurd hgranted (hnot t hmem)
  · rename_i hnone
    simp only [List.find?_eq_none, decide_eq_true_eq] at hnone
    rw [ite_eq_left_iff, ← inOrder_eq_true]
    simp only [reduceCtorEq, imp_false, not_not]
    exact ⟨fun h => ⟨hnone, h⟩, fun h => h.2⟩

theorem findSome?_all_eq_none {f : Cell → Option Flaw} :
    Cell.all.findSome? f = none ↔ ∀ c, f c = none := by
  rw [List.findSome?_eq_none_iff]
  exact ⟨fun h c => h c (Cell.mem_all c), fun h c _ => h c⟩

theorem total_eq_ok {f : PerCell Nat} (h : f.sum ≤ Word.max64) : f.total = .ok f.sum := by
  have hsum : f.toList.foldr (· + ·) 0 = f.sum := by
    simp only [PerCell.toList, PerCell.sum, List.foldr_cons, List.foldr_nil]
    omega
  rw [PerCell.total, Word.sum, hsum, if_pos h]

/-! ### The whole check -/

/-- The check finds nothing exactly on a consistent bus. -/
theorem check_eq_none_iff (hword : b.held.sum ≤ Word.max64) :
    b.check = .ok none ↔ b.Consistent := by
  rw [check, total_eq_ok hword]
  -- the check looks at the capacity first, then at the sum, then at everything else
  split_ifs with hcap
  · refine ⟨fun h => (by cases h), fun h => ?_⟩
    exact absurd h.active_le (Nat.not_le.2 hcap)
  · simp only [Except.map, Except.ok.injEq, ne_eq, ite_not]
    split_ifs with hsum
    · simp only [Option.or_eq_none_iff, findSome?_all_eq_none, holderFlaw?_eq_none,
        directionFlaw?_eq_none, strandedFlaw?_eq_none, queueFlaw?_eq_none]
      constructor
      · rintro ⟨hholders, ⟨hcur, hdir⟩, hidle, hqueue⟩
        exact ⟨Nat.not_lt.1 hcap, hsum, hholders, hcur, hdir, hidle, fun c => (hqueue c).1,
          fun c => (hqueue c).2⟩
      · intro h
        exact ⟨h.holders_eq, ⟨h.current_eq_none, h.one_direction⟩, h.nobody_stranded,
          fun c => ⟨h.not_granted c, h.sorted c⟩⟩
    · refine ⟨fun h => (by cases h), fun h => ?_⟩
      exact absurd h.held_sum hsum

/-! ### Every bus of a run -/

/-- A sound and settled bus is consistent. -/
theorem Sound.consistent (h : b.Sound) (hs : b.Settled) : b.Consistent where
  active_le := h.slots.active_le
  held_sum := h.slots.held_sum
  holders_eq c := by rw [length_holdersIn, h.slots.held_eq]
  current_eq_none := h.slots.current_eq_none
  one_direction d hd p := by
    rw [h.slots.held_eq, List.countP_eq_zero]
    intro x hx hxc
    have hcur := h.slots.current_of_holder x hx
    rw [hd, of_decide_eq_true hxc] at hcur
    cases d <;> cases hcur
  nobody_stranded := hs.idle
  not_granted _ _ := h.tickets.not_granted
  sorted := h.tickets.sorted

theorem Reachable.consistent (h : b.Reachable) : b.Consistent := h.sound.consistent h.settled

theorem Reachable.check (h : b.Reachable) (hcap : b.config.capacity ≤ Word.max64) :
    b.check = .ok none := by
  refine (check_eq_none_iff ?_).2 h.consistent
  rw [h.consistent.held_sum]
  exact Nat.le_trans h.consistent.active_le hcap

/-- **Every bus that a run leads to is consistent and passes its own check**, whatever operations
the run makes, with whatever tickets.  The check adds up machine words, so it is spoken of for
capacities that are one. -/
theorem check_run {config : Config} (hc : config.valid = true) (ops : List Op) :
    ((Bus.new config).run ops).2.Consistent ∧
      (config.capacity ≤ Word.max64 → ((Bus.new config).run ops).2.check = .ok none) := by
  have hreach : ((Bus.new config).run ops).2.Reachable := by
    refine ⟨?_, ops, ?_⟩
    · rwa [config_run]
    · rw [config_run]
      rfl
  have hcons := hreach.sound.consistent hreach.settled
  refine ⟨hcons, fun hcap => (check_eq_none_iff ?_).2 hcons⟩
  have hle := hcons.active_le
  rw [config_run] at hle
  rw [hcons.held_sum]
  exact Nat.le_trans hle hcap

/-- A bus with two slots that yields: releases by cell and by ticket, a withdrawal that wakes, and
operations on tickets that were never issued. -/
theorem check_run_two_slots :
    (⟨2, .alternate, 1, true⟩ : Config).valid = true ∧ 2 ≤ Word.max64 ∧
      ((Bus.new ⟨2, .alternate, 1, true⟩).run
        [.request ⟨.outbound, .normal⟩, .request ⟨.inbound, .elevated⟩,
          .request ⟨.outbound, .normal⟩, .releaseTicket 7, .withdraw 1, .takeGrant 9,
          .request ⟨.inbound, .normal⟩, .release ⟨.outbound, .normal⟩,
          .releaseTicket 2]).2.check = .ok none :=
  ⟨by decide, by decide, (check_run (by decide) _).2 (by decide)⟩

end Bus

end HalfDuplex

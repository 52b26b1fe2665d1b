import HalfDuplex.Proofs.Cycle

/-!
# How often a waiting direction is passed over

While a direction has waiters and no cycle begins for it, cycles begin for the other direction.
Under the alternating rule there are only so many of them, whatever requests, releases and
withdrawals the run makes meanwhile.

* `Bus.nextTurn_again` : how a bus can choose the direction of its last cycle once more although
  somebody waits on the other side.
* `Bus.begun_passing` : what an operation can begin that passes over a waiting direction.
* `Bus.length_cycles_le` : a budget that every such cycle draws on bounds their number.
* `Bus.cycles_past_elevated` : at most one cycle passes over an elevated waiter.
* `Bus.cycles_past_waiters` : one more cycle than the streak limit can pass over a waiter, and no
  more than the limit if the last cycle was not the waiter's.

The budget depends on the last direction and the streak only, and these change only when a cycle
begins.  So the rest of the run does not matter.
-/

namespace HalfDuplex

namespace Service

/-- How many cycles can still pass over an elevated waiter of direction `d`. -/
def elevatedBudget (d : Direction) (s : Service) : Nat := if s.last = some d.opposite then 0 else 1

/-- How many cycles can still pass over a waiter of direction `d`. -/
def budget (d : Direction) (limit : Nat) (s : Service) : Nat :=
  if s.last = some d.opposite then limit - s.streak else limit + 1

variable {d : Direction} {limit : Nat} {s : Service}

theorem elevatedBudget_le : s.elevatedBudget d ≤ 1 := by
  unfold elevatedBudget
  split_ifs <;> omega

theorem budget_le : s.budget d limit ≤ limit + 1 := by
  unfold budget
  split_ifs <;> omega

theorem budget_le_of_last (h : s.last = some d.opposite) : s.budget d limit ≤ limit := by
  rw [budget, if_pos h]
  exact Nat.sub_le _ _

theorem elevatedBudget_after_lt {why : Option Reason} (h : s.last ≠ some d.opposite) :
    (s.after ⟨d.opposite, why⟩).elevatedBudget d < s.elevatedBudget d := by
  have hafter : (s.after ⟨d.opposite, why⟩).elevatedBudget d = 0 := if_pos rfl
  rw [hafter, elevatedBudget, if_neg h]
  exact Nat.one_pos

theorem budget_after_lt {why : Option Reason}
    (h : s.last = some d.opposite → why = some .elevated ∧ s.streak < limit) :
    (s.after ⟨d.opposite, why⟩).budget d limit < s.budget d limit := by
  have hafter : (s.after ⟨d.opposite, why⟩).budget d limit =
      limit - (s.after ⟨d.opposite, why⟩).streak := if_pos rfl
  rw [hafter]
  by_cases hlast : s.last = some d.opposite
  · obtain ⟨hwhy, hlt⟩ := h hlast
    have hstreak : (s.after ⟨d.opposite, why⟩).streak = s.streak + 1 := by
      simp only [after, hwhy, hlast, ↓reduceIte]
    rw [hstreak, budget, if_pos hlast]
    omega
  · rw [budget, if_neg hlast]
    omega

end Service

namespace Bus

variable {b : Bus} {d : Direction} {ops : List Op}

/-- Between rivals one of which is preferred, the direction of the last cycle is chosen again only
if it is the preferred one, and only within the streak limit. -/
theorem contested_again {e : Direction} {r : Reason} (hp : b.preferred? = some e)
    (hlast : b.lastServed = some d.opposite) (hc : b.contested = (d.opposite, r)) :
    r = .elevated ∧ b.streak < b.config.streakLimit ∧
      b.hasWaitersIn ⟨d, .elevated⟩ = false := by
  simp only [contested, hp] at hc
  split_ifs at hc with hx
  · -- the preferred side has used up its streak, but it was not served last
    obtain ⟨he, -⟩ := Prod.mk.inj hc
    simp only [exhausted, Bool.and_eq_true, decide_eq_true_eq] at hx
    rw [hx.1, ← he] at hlast
    exact absurd (Option.some.inj hlast).symm (Direction.opposite_ne e)
  · obtain ⟨rfl, rfl⟩ := Prod.mk.inj hc
    have hlt : b.streak < b.config.streakLimit := by
      simp only [exhausted, hlast, decide_true, Bool.true_and, decide_eq_true_eq] at hx
      exact Nat.not_le.1 hx
    have hnone := (preferred?_eq_some hp).2
    rw [Direction.opposite_opposite] at hnone
    exact ⟨rfl, hlt, hnone⟩

theorem contested_of_nextTurn (hw : b.hasWaiters d = true) {r : Reason}
    (hn : b.nextTurn = some (d.opposite, r)) : b.contested = (d.opposite, r) := by
  rw [nextTurn_of_waiters hw (hasWaiters_of_nextTurn hn)] at hn
  exact Option.some.inj hn

/-- The direction of the last cycle is chosen again over a waiting one only because it alone has
elevated waiters, and only within the streak limit. -/
theorem nextTurn_again (hfair : b.config.fairness = .alternate) (hw : b.hasWaiters d = true)
    (hlast : b.lastServed = some d.opposite) {r : Reason}
    (hn : b.nextTurn = some (d.opposite, r)) :
    r = .elevated ∧ b.streak < b.config.streakLimit ∧
      b.hasWaitersIn ⟨d, .elevated⟩ = false := by
  have hc := contested_of_nextTurn hw hn
  cases hp : b.preferred? with
  | some e => exact contested_again hp hlast hc
  -- without a preferred side the bus alternates
  | none =>
    rw [contested_alternate hp hfair hlast] at hc
    obtain ⟨he, -⟩ := Prod.mk.inj hc
    exact absurd he.symm (by simp)

theorem begun_passing (h : b.Sound) (hs : b.Settled) (op : Op) (hw : b.hasWaiters d = true)
    (hno : ∀ k ∈ b.begun (b.moves op), k.direction ≠ d) :
    b.begun (b.moves op) = [] ∨ ∃ r, b.nextTurn = some (d.opposite, r) ∧
      b.begun (b.moves op) = [⟨d.opposite, some r⟩] := by
  have hbegins := begins_moves h hs op
  generalize b.begun (b.moves op) = ks at hno hbegins
  cases hbegins with
  | nothing => exact Or.inl rfl
  -- nobody waits on an empty bus
  | arrival h0 => exact absurd h0 (hs.active_ne_zero hw)
  | @turn e r _ hn =>
    obtain rfl : e = d.opposite := Direction.eq_opposite_of_ne (hno _ (List.mem_singleton_self _))
    exact Or.inr ⟨r, hn, rfl⟩

/-- **Budgets.**  While `P` holds, which makes somebody of direction `d` wait, and no cycle begins
for `d`: if every choice of the other direction draws on a budget, there are at most as many cycles
as the budget allows at the start. -/
theorem length_cycles_le {P : Bus → Prop} (φ : Service → Nat) (h : b.Sound) (hs : b.Settled)
    (hP : ∀ s ∈ b.stages ops, P s) (hwait : ∀ s, P s → s.hasWaiters d = true)
    (hdraw : ∀ s, s.config = b.config → P s → ∀ r, s.nextTurn = some (d.opposite, r) →
      φ (s.service.after ⟨d.opposite, some r⟩) < φ s.service)
    (hno : ∀ k ∈ b.cycles ops, k.direction ≠ d) : (b.cycles ops).length ≤ φ b.service := by
  -- by induction on the run; the budget left after an operation covers the rest
  induction ops generalizing b with
  | nil => exact Nat.zero_le _
  | cons op ops ih =>
    rw [stages, List.forall_mem_cons] at hP
    obtain ⟨hPb, hP⟩ := hP
    have hw := hwait b hPb
    rw [cycles_cons] at hno ⊢
    have hrest := ih (h.step hs op) (hs.step h op) hP
      (fun s hc => hdraw s (hc.trans (config_step b op)))
      fun k hk => hno k (List.mem_append_right _ hk)
    have hfirst : ∀ k ∈ b.begun (b.moves op), k.direction ≠ d :=
      fun k hk => hno k (List.mem_append_left _ hk)
    rw [service_step] at hrest
    rw [List.length_append]
    rcases begun_passing h hs op hw hfirst with hks | ⟨r, hn, hks⟩
    · rw [hks, List.foldl_nil] at hrest
      rw [hks, List.length_nil, Nat.zero_add]
      exact hrest
    · have hlt := hdraw b rfl hPb r hn
      rw [hks, List.foldl_cons, List.foldl_nil] at hrest
      rw [hks, List.length_singleton]
      omega

/-- **At most one cycle passes over an elevated waiter.**  In a run during which direction `d`
always has an elevated waiter and no cycle begins for it, at most one begins for the other. -/
theorem cycles_past_elevated (h : b.Reachable) (hfair : b.config.fairness = .alternate)
    (hwait : ∀ s ∈ b.stages ops, s.hasWaitersIn ⟨d, .elevated⟩ = true)
    (hno : ∀ k ∈ b.cycles ops, k.direction ≠ d) :
    (b.cycles ops).countP (fun k => k.direction = d.opposite) ≤ 1 := by
  have hany : ∀ s : Bus, s.hasWaitersIn ⟨d, .elevated⟩ = true → s.hasWaiters d = true := by
    intro s hs
    rw [hasWaiters, hs, Bool.true_or]
  have hle : (b.cycles ops).length ≤ b.service.elevatedBudget d := by
    refine length_cycles_le _ h.sound h.settled hwait hany ?_ hno
    intro s hc hs r hn
    refine Service.elevatedBudget_after_lt fun hlast => ?_
    obtain ⟨-, -, hnone⟩ := nextTurn_again (hc ▸ hfair) (hany s hs) hlast hn
    rw [hnone] at hs
    cases hs
  calc (b.cycles ops).countP (fun k => k.direction = d.opposite)
      ≤ (b.cycles ops).length := List.countP_le_length
    _ ≤ b.service.elevatedBudget d := hle
    _ ≤ 1 := Service.elevatedBudget_le

/-- The bound is attained: elevated callers wait on both sides, and it is the other side's turn. -/
theorem cycles_past_elevated_one : ∃ b ops, Bus.Reachable b ∧ b.config.fairness = .alternate ∧
    (∀ s ∈ b.stages ops, s.hasWaitersIn ⟨.inbound, .elevated⟩ = true) ∧
    (∀ k ∈ b.cycles ops, k.direction ≠ .inbound) ∧
    (b.cycles ops).countP (fun k => k.direction = .outbound) = 1 := by
  refine ⟨((Bus.new ⟨1, .alternate, 2, true⟩).run [.request ⟨.inbound, .normal⟩,
      .request ⟨.inbound, .elevated⟩, .request ⟨.outbound, .elevated⟩]).2,
    [.release ⟨.inbound, .normal⟩, .request ⟨.outbound, .elevated⟩, .withdraw 3],
    ⟨by decide, _, rfl⟩, rfl, by decide, by decide, ?_⟩
  refine Nat.le_antisymm ?_ (by decide)
  exact cycles_past_elevated (d := .inbound) ⟨by decide, _, rfl⟩ rfl (by decide) (by decide)

/-- **The streak limit bounds the cycles that pass over a waiter.**  In a run during which
direction `d` always has a waiter and no cycle begins for it, at most one cycle more than the limit
begins for the other, and no more than the limit if the other was served last. -/
theorem cycles_past_waiters (h : b.Reachable) (hfair : b.config.fairness = .alternate)
    (hwait : ∀ s ∈ b.stages ops, s.hasWaiters d = true)
    (hno : ∀ k ∈ b.cycles ops, k.direction ≠ d) :
    (b.cycles ops).countP (fun k => k.direction = d.opposite) ≤ b.config.streakLimit + 1 ∧
      (b.lastServed = some d.opposite →
        (b.cycles ops).countP (fun k => k.direction = d.opposite) ≤ b.config.streakLimit) := by
  have hle : (b.cycles ops).length ≤ b.service.budget d b.config.streakLimit := by
    refine length_cycles_le _ h.sound h.settled hwait (fun _ hs => hs) ?_ hno
    intro s hc hs r hn
    refine Service.budget_after_lt fun hlast => ?_
    obtain ⟨rfl, hlt, -⟩ := nextTurn_again (hc ▸ hfair) hs hlast hn
    exact ⟨rfl, hc ▸ hlt⟩
  have hcount : (b.cycles ops).countP (fun k => k.direction = d.opposite) ≤
      b.service.budget d b.config.streakLimit := Nat.le_trans List.countP_le_length hle
  refine ⟨Nat.le_trans hcount Service.budget_le, fun hlast => ?_⟩
  exact Nat.le_trans hcount (Service.budget_le_of_last hlast)

/-- Both bounds are attained: with a streak limit of two, an inbound waiter is passed over once
because it is not its turn and then twice for elevated outbound callers. -/
theorem cycles_past_waiters_three : ∃ b op ops, Bus.Reachable b ∧
    b.config = ⟨1, .alternate, 2, false⟩ ∧
    (∀ s ∈ b.stages (op :: ops), s.hasWaiters .inbound = true) ∧
    (∀ k ∈ b.cycles (op :: ops), k.direction ≠ .inbound) ∧
    (b.cycles (op :: ops)).countP (fun k => k.direction = .outbound) = 3 ∧
    (b.step op).2.lastServed = some .outbound ∧
    ((b.step op).2.cycles ops).countP (fun k => k.direction = .outbound) = 2 := by
  refine ⟨((Bus.new ⟨1, .alternate, 2, false⟩).run [.request ⟨.inbound, .normal⟩,
      .request ⟨.inbound, .normal⟩, .request ⟨.outbound, .normal⟩]).2, .releaseTicket 0,
    [.request ⟨.outbound, .elevated⟩, .releaseTicket 2, .request ⟨.outbound, .elevated⟩,
      .releaseTicket 3], ⟨by decide, _, rfl⟩, rfl, by decide, by decide, ?_, by decide, ?_⟩
  · refine Nat.le_antisymm ?_ (by decide)
    exact (cycles_past_waiters (d := .inbound) ⟨by decide, _, rfl⟩ rfl (by decide)
      (by decide)).1
  · refine Nat.le_antisymm ?_ (by decide)
    exact (cycles_past_waiters (d := .inbound)
      ⟨by decide, [.request ⟨.inbound, .normal⟩, .request ⟨.inbound, .normal⟩,
        .request ⟨.outbound, .normal⟩, .releaseTicket 0], rfl⟩ rfl (by decide)
      (by decide)).2 (by decide)

end Bus

end HalfDuplex

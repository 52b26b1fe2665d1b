import HalfDuplex.Proofs.Consistent

/-!
# What the check of a bus finds

`Bus.check` is asked of any bus, also of one that no run leads to.  It looks for one thing after the
other and stops at the first that does not fit.

* `Bus.Has` : what a flaw says of a bus, in plain terms.
* `Flaw.stage` : the stage of the check that looks for a flaw.
* `Bus.CleanBefore` : a bus without flaws of the earlier stages.
* `Bus.has_of_check` : what the check reports is so, and nothing of an earlier stage is.
* `Bus.check_exact` : when the check reports nothing, and what it reports otherwise.

Of the queues, the check compares neighbours only; that is enough, since being smaller is
transitive.
-/

namespace HalfDuplex

/-- The stage of the check that looks for a flaw. -/
def Flaw.stage : Flaw → Nat
  | overCapacity _ _ => 0
  | heldMismatch _ _ => 1
  | holdersMismatch _ _ _ => 2
  | noDirection _ | idleDirection _ | mixedDirections _ _ => 3
  | stranded _ => 4
  | queuedAndGranted _ | unordered => 5

namespace Bus

/-- What a flaw says is so on bus `b`. -/
def Has (b : Bus) : Flaw → Prop
  | .overCapacity active capacity =>
    active = b.active ∧ capacity = b.config.capacity ∧ capacity < active
  | .heldMismatch total active => total = b.held.sum ∧ active = b.active ∧ total ≠ active
  | .holdersMismatch c holders held =>
    holders = (b.holdersIn c).length ∧ held = b.held.get c ∧ holders ≠ held
  | .noDirection active => b.current = none ∧ active = b.active ∧ active ≠ 0
  | .idleDirection d => b.current = some d ∧ b.active = 0
  | .mixedDirections others d => b.current = some d ∧ others ≠ 0 ∧
    others = b.held.get ⟨d.opposite, .elevated⟩ + b.held.get ⟨d.opposite, .normal⟩
  | .stranded waiters => b.active = 0 ∧ waiters = b.totalWaiting ∧ waiters ≠ 0
  | .queuedAndGranted t => ∃ c, t ∈ b.waiting.get c ∧ t ∈ b.granted
  | .unordered => ∃ c, ¬ (b.waiting.get c).Pairwise (· < ·)

/-- The bus has no flaw that the check looks for before stage `n`. -/
def CleanBefore (b : Bus) (n : Nat) : Prop := ∀ f, b.Has f → n ≤ f.stage

variable {b : Bus} {n : Nat} {f : Flaw} {c : Cell}

theorem CleanBefore.succ (h : b.CleanBefore n) (hn : ∀ f, f.stage = n → ¬ b.Has f) :
    b.CleanBefore (n + 1) := by
  intro f hf
  have hle := h f hf
  have hne : f.stage ≠ n := fun he => hn f he hf
  omega

/-! ### The stages of the check -/

theorem cleanBefore_one (hcap : ¬ b.config.capacity < b.active) : b.CleanBefore 1 := by
  refine CleanBefore.succ (fun f _ => Nat.zero_le _) fun f hstage hf => ?_
  cases f with
  | overCapacity =>
    obtain ⟨rfl, rfl, hlt⟩ := hf
    exact hcap hlt
  | _ => cases hstage

theorem CleanBefore.two (h : b.CleanBefore 1) (hsum : b.held.sum = b.active) :
    b.CleanBefore 2 := by
  refine h.succ fun f hstage hf => ?_
  cases f with
  | heldMismatch =>
    obtain ⟨rfl, rfl, hne⟩ := hf
    exact hne hsum
  | _ => cases hstage

theorem CleanBefore.three (h : b.CleanBefore 2) (hnone : ∀ c, b.holderFlaw? c = none) :
    b.CleanBefore 3 := by
  refine h.succ fun f hstage hf => ?_
  cases f with
  | holdersMismatch c =>
    obtain ⟨rfl, rfl, hne⟩ := hf
    exact hne (holderFlaw?_eq_none.1 (hnone c))
  | _ => cases hstage

theorem CleanBefore.four (h : b.CleanBefore 3) (hnone : b.directionFlaw? = none) :
    b.CleanBefore 4 := by
  obtain ⟨hiff, hothers⟩ := directionFlaw?_eq_none.1 hnone
  refine h.succ fun f hstage hf => ?_
  cases f with
  | noDirection =>
    obtain ⟨hcurrent, rfl, hne⟩ := hf
    exact hne (hiff.1 hcurrent)
  | idleDirection =>
    obtain ⟨hcurrent, h0⟩ := hf
    rw [hiff.2 h0] at hcurrent
    cases hcurrent
  | mixedDirections =>
    obtain ⟨hcurrent, hne, rfl⟩ := hf
    rw [hothers _ hcurrent, hothers _ hcurrent] at hne
    exact hne rfl
  | _ => cases hstage

theorem CleanBefore.five (h : b.CleanBefore 4) (hnone : b.strandedFlaw? = none) :
    b.CleanBefore 5 := by
  refine h.succ fun f hstage hf => ?_
  cases f with
  | stranded =>
    obtain ⟨h0, rfl, hne⟩ := hf
    exact hne (totalWaiting_eq_zero.2 (strandedFlaw?_eq_none.1 hnone h0))
  | _ => cases hstage

/-! ### What each stage reports -/

theorem has_of_holderFlaw? (h : b.holderFlaw? c = some f) : b.Has f ∧ f.stage = 2 := by
  simp only [holderFlaw?] at h
  split_ifs at h with hne
  cases h
  exact ⟨⟨rfl, rfl, hne⟩, rfl⟩

theorem has_of_directionFlaw? (h : b.directionFlaw? = some f) : b.Has f ∧ f.stage = 3 := by
  unfold directionFlaw? at h
  cases hcurrent : b.current with
  | none =>
    simp only [hcurrent] at h
    split_ifs at h with h0
    cases h
    exact ⟨⟨hcurrent, rfl, h0⟩, rfl⟩
  | some d =>
    simp only [hcurrent] at h
    split_ifs at h with h0 hothers
    · cases h
      exact ⟨⟨hcurrent, h0⟩, rfl⟩
    · cases h
      exact ⟨⟨hcurrent, hothers, rfl⟩, rfl⟩

theorem has_of_strandedFlaw? (h : b.strandedFlaw? = some f) : b.Has f ∧ f.stage = 4 := by
  unfold strandedFlaw? at h
  split_ifs at h with hstranded
  cases h
  exact ⟨⟨hstranded.1, rfl, hstranded.2⟩, rfl⟩

theorem has_of_queueFlaw? (h : b.queueFlaw? c = some f) : b.Has f ∧ f.stage = 5 := by
  unfold queueFlaw? at h
  split at h
  · rename_i t ht
    cases h
    exact ⟨⟨c, List.mem_of_find?_eq_some ht, by simpa using List.find?_some ht⟩, rfl⟩
  · split_ifs at h with horder
    cases h
    exact ⟨⟨c, fun hsorted => horder (inOrder_eq_true.2 hsorted)⟩, rfl⟩

/-! ### The whole check -/

/-- What the check reports is so, and nothing is so that it looks for at an earlier stage. -/
theorem has_of_check (hword : b.held.sum ≤ Word.max64) (h : b.check = .ok (some f)) :
    b.Has f ∧ b.CleanBefore f.stage := by
  rw [check, total_eq_ok hword] at h
  split_ifs at h with hcap
  · cases h
    exact ⟨⟨rfl, rfl, hcap⟩, fun g _ => Nat.zero_le _⟩
  have hone := cleanBefore_one hcap
  simp only [Except.map, Except.ok.injEq, ne_eq, ite_not] at h
  split_ifs at h with hsum
  swap
  · cases h
    exact ⟨⟨rfl, rfl, hsum⟩, hone⟩
  have htwo := hone.two hsum
  simp only [Option.or_eq_some_iff, findSome?_all_eq_none] at h
  rcases h with h | ⟨hholders, h | ⟨hdirection, h | ⟨hstranded, h⟩⟩⟩
  · obtain ⟨c, -, hc⟩ := List.exists_of_findSome?_eq_some h
    obtain ⟨hhas, hstage⟩ := has_of_holderFlaw? hc
    exact ⟨hhas, hstage ▸ htwo⟩
  · obtain ⟨hhas, hstage⟩ := has_of_directionFlaw? h
    exact ⟨hhas, hstage ▸ htwo.three hholders⟩
  · obtain ⟨hhas, hstage⟩ := has_of_strandedFlaw? h
    exact ⟨hhas, hstage ▸ (htwo.three hholders).four hdirection⟩
  · obtain ⟨c, -, hc⟩ := List.exists_of_findSome?_eq_some h
    obtain ⟨hhas, hstage⟩ := has_of_queueFlaw? hc
    exact ⟨hhas, hstage ▸ ((htwo.three hholders).four hdirection).five hstranded⟩

/-- **The check of a bus is exact.**  On every bus whose held counts add up to a machine word,
whether a run leads to it or not, the check reports nothing exactly if the bus holds no more slots
than it has, the held counts add up to the held slots and are those of the holders, it runs in a
direction exactly if slots are held and has none held against it, nobody waits while none is held,
and no waiter has a grant or came before one that stands in front of it.  A flaw that is reported is
there, and none is there that the check looks for earlier. -/
theorem check_exact (hword : b.held.sum ≤ Word.max64) :
    (b.check = .ok none ↔
      b.active ≤ b.config.capacity ∧
      b.held.outboundElevated + b.held.outboundNormal + b.held.inboundElevated +
        b.held.inboundNormal = b.active ∧
      (∀ c, (b.holders.filter fun x => x.2 = c).length = b.held.get c) ∧
      (b.current = none ↔ b.active = 0) ∧
      (∀ d, b.current = some d → ∀ p, b.held.get ⟨d.opposite, p⟩ = 0) ∧
      (b.active = 0 → ∀ c, b.waiting.get c = []) ∧
      ∀ c, (∀ t ∈ b.waiting.get c, t ∉ b.granted) ∧
        ∀ i j (_ : i < (b.waiting.get c).length) (_ : j < (b.waiting.get c).length), i < j →
          (b.waiting.get c)[i] < (b.waiting.get c)[j]) ∧
    ∀ f, b.check = .ok (some f) → b.Has f ∧ ∀ g, b.Has g → f.stage ≤ g.stage := by
  refine ⟨?_, fun f h => has_of_check hword h⟩
  have hlength : ∀ c, (b.holders.filter fun x => x.2 = c).length = (b.holdersIn c).length :=
    fun c => List.length_map _ |>.symm
  simp only [check_eq_none_iff hword, hlength, ← List.pairwise_iff_getElem]
  constructor
  · intro h
    exact ⟨h.active_le, h.held_sum, h.holders_eq, h.current_eq_none, h.one_direction,
      h.nobody_stranded, fun c => ⟨h.not_granted c, h.sorted c⟩⟩
  · rintro ⟨hcap, hsum, hholders, hcurrent, hothers, hidle, hqueues⟩
    exact ⟨hcap, hsum, hholders, hcurrent, hothers, hidle, fun c => (hqueues c).1,
      fun c => (hqueues c).2⟩

/-- A bus that no run leads to, with a queue out of order.  All other things fit, and with the queue
the other way round the check reports nothing, although the waiters were never issued a number. -/
theorem check_exact_unordered :
    let b (queue : List Ticket) : Bus :=
      { config := .standard, active := 1, current := some .outbound
        held := (PerCell.replicate 0).set ⟨.outbound, .normal⟩ 1
        holders := [(0, ⟨.outbound, .normal⟩)]
        waiting := (PerCell.replicate []).set ⟨.inbound, .elevated⟩ queue }
    (b [8, 9, 7]).held.sum ≤ Word.max64 ∧ (b [8, 9, 7]).check = .ok (some .unordered) ∧
      (b [8, 9, 7]).Has .unordered ∧ (∀ g, (b [8, 9, 7]).Has g → 5 ≤ g.stage) ∧
      (b [7, 8, 9]).check = .ok none := by
  intro b
  have hword : ∀ queue, (b queue).held.sum ≤ Word.max64 := fun _ => by
    show 1 ≤ Word.max64
    decide
  have hfound : (b [8, 9, 7]).check = .ok (some .unordered) := by decide
  obtain ⟨hhas, hfirst⟩ := (check_exact (hword [8, 9, 7])).2 .unordered hfound
  exact ⟨hword _, hfound, hhas, hfirst, by decide⟩

end Bus

end HalfDuplex

import HalfDuplex.Proofs.Field

/-!
# Which moves a bus may make

`Bus.Legal` lists the moves that occur in operations, each under the condition under which its
operation makes it.  Everything that is proved of single moments of a run rests on this list.

* `Bus.Settled` : nobody waits who could go.  Operations begin and end with a settled bus.
* `Bus.Turning` : why the next waiter of a direction may take a slot now.
* `Bus.legal_serveMoves` : all moves that serve a direction are legal.
-/

namespace HalfDuplex

namespace Bus

/-- Nobody waits who could go. -/
structure Settled (b : Bus) : Prop where
  /-- Nobody waits on an empty bus. -/
  idle : b.active = 0 → ∀ c, b.waiting.get c = []
  /-- Callers of the running direction wait beside a free slot only where the bus yields. -/
  busy : ∀ d, b.current = some d → b.active < b.config.capacity → b.hasWaiters d = true →
    b.yields d = true

/-- Why the next waiter of direction `d` takes a slot now. -/
inductive Turning (b : Bus) (d : Direction) : Option Reason → Prop where
  /-- The empty bus was handed to its direction. -/
  | start {r : Reason} : b.active = 0 → b.nextTurn = some (d, r) → Turning b d (some r)
  /-- The bus has just been handed to its direction and has more room. -/
  | follow {r : Reason} : b.current = some d → Turning b d (some r)
  /-- The running bus is topped up. -/
  | refill : b.current = some d → b.yields d = false → Turning b d none

/-- The moves that a bus may make. -/
inductive Legal (b : Bus) : Move → Prop where
  | arrive {c : Cell} : b.Settled → b.accepts c = true → Legal b (.arrive b.nextTicket c)
  | enqueue {c : Cell} : b.Settled → b.accepts c = false → Legal b (.enqueue b.nextTicket c)
  | board {t : Ticket} {c : Cell} {why : Option Reason} : b.Front t c →
      b.active < b.config.capacity → b.Turning c.direction why → Legal b (.board t c why)
  | collect {t : Ticket} : b.Settled → t ∈ b.granted → Legal b (.collect t)
  | vacate {t : Ticket} {c : Cell} : b.Settled → (t, c) ∈ b.holders → Legal b (.vacate t c)
  | leave {t : Ticket} {c : Cell} : b.Settled → t ∈ b.waiting.get c → Legal b (.leave t c)
  | refuse : b.Settled → Legal b .refuse

/-- The move of this moment was legal. -/
def Moment.Legal (m : Moment) : Prop := m.bus.Legal m.move

variable {b : Bus}

/-- The empty bus takes anybody.  The running bus takes its own direction, with room left, when
nobody of the cell waits, nor an elevated one before a normal one, and it does not yield. -/
theorem accepts_eq_true {c : Cell} : b.accepts c = true ↔ b.active = 0 ∨
    b.current = some c.direction ∧ b.active < b.config.capacity ∧ b.waiting.get c = [] ∧
      (c.priority = .normal → b.waiting.get ⟨c.direction, .elevated⟩ = []) ∧
      b.yields c.direction = false := by
  simp [accepts, hasWaitersIn, and_assoc, imp_iff_not_or]

theorem active_ne_zero_of_refused {c : Cell} (h : b.accepts c = false) : b.active ≠ 0 := by
  intro h0
  rw [accepts_eq_true.2 (Or.inl h0)] at h
  cases h

theorem Settled.active_ne_zero (hs : b.Settled) {d : Direction} (hw : b.hasWaiters d = true) :
    b.active ≠ 0 := by
  intro h0
  rw [hasWaiters_eq_false.2 fun p => hs.idle h0 ⟨d, p⟩] at hw
  cases hw

theorem Settled.no_waiters (hs : b.Settled) {d : Direction} (hc : b.current = some d)
    (hroom : b.active < b.config.capacity) (hy : b.yields d = false) :
    b.hasWaiters d = false := by
  by_contra hw
  rw [hs.busy d hc hroom (by simpa using hw)] at hy
  cases hy

theorem Settled.waiting_of_accepts (hs : b.Settled) {c : Cell} (h : b.accepts c = true)
    (p : Priority) : b.waiting.get ⟨c.direction, p⟩ = [] := by
  rcases accepts_eq_true.1 h with h0 | ⟨hc, hroom, -, -, hy⟩
  · exact hs.idle h0 _
  · exact hasWaiters_eq_false.1 (hs.no_waiters hc hroom hy) p

/-! ### Serving a direction -/

theorem waiting_board_of_ne {t : Ticket} {c c' : Cell} {why : Option Reason}
    (h : c'.direction ≠ c.direction) :
    (b.perform (.board t c why)).waiting.get c' = b.waiting.get c' := by
  have hne : c' ≠ c := fun e => h (congrArg Cell.direction e)
  simp only [waiting_perform, PerCell.get_set, hne, ↓reduceIte]

theorem Turning.board {t : Ticket} {c : Cell} {why : Option Reason}
    (h : b.Turning c.direction why) :
    (b.perform (.board t c why)).Turning c.direction why := by
  have hc : (b.perform (.board t c why)).current = some c.direction := current_perform b _
  cases h with
  | start => exact .follow hc
  | follow => exact .follow hc
  | refill _ hy =>
    refine .refill hc ?_
    -- the bus yields to the other direction, whose queues stay as they are
    have hw : (b.perform (.board t c none)).hasWaiters c.direction.opposite =
        b.hasWaiters c.direction.opposite :=
      hasWaiters_congr fun p => waiting_board_of_ne (Direction.opposite_ne _)
    simpa only [yields, config_perform, hw] using hy

/-- All moves that serve a direction are legal. -/
theorem legal_serveMoves {d : Direction} {why : Option Reason} {room : Nat}
    (hroom : room + b.active ≤ b.config.capacity) (ht : b.Turning d why) :
    ∀ m ∈ b.moments (serveMoves d why room b), m.Legal := by
  induction room generalizing b with
  | zero => simp [serveMoves]
  | succ room ih =>
    cases h : b.popWaiter? d with
    | none => simp [serveMoves, h]
    | some next =>
      obtain ⟨t, c, b'⟩ := next
      obtain ⟨rfl, hf, -⟩ := popWaiter?_eq_some h
      simp only [serveMoves, h, moments_cons, List.mem_cons, forall_eq_or_imp]
      have hlt : b.active < b.config.capacity := by omega
      refine ⟨.board hf hlt ht, ih ?_ ht.board⟩
      simp only [active_perform, config_perform]
      omega

theorem full_or_served (d : Direction) (why : Option Reason) (room : Nat) :
    (b.performAll (serveMoves d why room b)).active = b.active + room ∨
      (b.performAll (serveMoves d why room b)).hasWaiters d = false := by
  induction room generalizing b with
  | zero => exact Or.inl rfl
  | succ room ih =>
    cases h : b.popWaiter? d with
    | none =>
      right
      simpa only [serveMoves, h, performAll_nil] using popWaiter?_eq_none h
    | some next =>
      obtain ⟨t, c, b'⟩ := next
      simp only [serveMoves, h, performAll_cons]
      refine (ih (b := b.perform (.board t c why))).imp_left fun hfull => ?_
      rw [hfull]
      simp only [active_perform]
      omega

/-- What boarding the next waiter of a direction preserves, serving the direction preserves. -/
theorem serveMoves_induct {P : Bus → Prop} {d : Direction} {why : Option Reason} {room : Nat}
    (h : P b) (hboard : ∀ s t c, P s → c.direction = d → s.Front t c →
      P (s.perform (.board t c why))) : P (b.performAll (serveMoves d why room b)) := by
  induction room generalizing b with
  | zero => exact h
  | succ room ih =>
    cases hp : b.popWaiter? d with
    | none => simpa only [serveMoves, hp, performAll_nil] using h
    | some next =>
      obtain ⟨t, c, b'⟩ := next
      obtain ⟨hd, hf, -⟩ := popWaiter?_eq_some hp
      simp only [serveMoves, hp, performAll_cons]
      exact ih (hboard b t c h hd hf)

theorem current_serveMoves {d : Direction} {why : Option Reason} {room : Nat}
    (h : b.current = some d) :
    (b.performAll (serveMoves d why room b)).current = some d := by
  refine serveMoves_induct (P := fun s => s.current = some d) h ?_
  rintro s t c - rfl -
  exact current_perform s _

theorem active_le_serveMoves (d : Direction) (why : Option Reason) (room : Nat) :
    b.active ≤ (b.performAll (serveMoves d why room b)).active := by
  refine serveMoves_induct (P := fun s => b.active ≤ s.active) (Nat.le_refl _) ?_
  intro s t c hs _ _
  rw [active_perform]
  exact Nat.le_succ_of_le hs

/-- A direction with waiters lets in the first of them, and then goes on. -/
theorem serveMoves_of_waiters {d : Direction} (h : b.hasWaiters d = true) (why : Option Reason)
    (room : Nat) : ∃ t c, c.direction = d ∧ b.Front t c ∧ serveMoves d why (room + 1) b =
      .board t c why :: serveMoves d why room (b.perform (.board t c why)) := by
  cases hp : b.popWaiter? d with
  | none =>
    rw [popWaiter?_eq_none hp] at h
    cases h
  | some next =>
    obtain ⟨t, c, b'⟩ := next
    obtain ⟨hd, hf, -⟩ := popWaiter?_eq_some hp
    exact ⟨t, c, hd, hf, by simp only [serveMoves, hp]⟩

/-- A running bus that is filled up from its own direction is settled. -/
theorem settled_serveMoves {d : Direction} (why : Option Reason) (hc : b.current = some d)
    (hpos : 0 < b.active) (hle : b.active ≤ b.config.capacity) :
    (b.performAll (serveMoves d why (b.config.capacity - b.active) b)).Settled where
  idle h0 := by
    have hge := active_le_serveMoves (b := b) d why (b.config.capacity - b.active)
    omega
  busy d' hd' hroom hw := by
    rw [current_serveMoves hc] at hd'
    cases hd'
    rw [config_performAll] at hroom
    rcases full_or_served (b := b) d why (b.config.capacity - b.active) with hfull | hnone
    · omega
    · rw [hnone] at hw
      cases hw

end Bus

end HalfDuplex

import HalfDuplex.Proofs.Slots

/-!
# Every operation ends with a settled bus

An operation on a sound and settled bus makes legal moves only, and the bus it leaves is sound and
settled again.  So the same holds of every bus that a run leads to, and every moment of a run is a
legal move of a sound bus.

* `Bus.Sound` : slots and tickets fit together; this holds also between the moves of an operation.
* `Bus.legal_moves` : what an operation does to a sound and settled bus.
* `Bus.Reachable.sound`, `Bus.Reachable.settled` : the buses of a run.
* `Bus.Reachable.history` : the moments of a run.
-/

namespace HalfDuplex

namespace Bus

/-- Slots and tickets fit together. -/
structure Sound (b : Bus) : Prop where
  slots : b.SlotsFit
  tickets : b.TicketsFit

variable {b : Bus} {m : Move} {ms : List Move}

theorem Sound.perform (h : b.Sound) (hm : b.Legal m) : (b.perform m).Sound :=
  ⟨h.slots.perform h.tickets hm, h.tickets.perform hm⟩

theorem Sound.performAll (h : b.Sound) (hms : ∀ m ∈ b.moments ms, m.Legal) :
    (b.performAll ms).Sound := by
  induction ms generalizing b with
  | nil => exact h
  | cons m ms ih =>
    rw [moments_cons, List.forall_mem_cons] at hms
    exact ih (h.perform hms.1) hms.2

theorem Sound.moments (h : b.Sound) (hms : ∀ m ∈ b.moments ms, m.Legal) :
    ∀ m ∈ b.moments ms, m.bus.Sound := by
  induction ms generalizing b with
  | nil => simp
  | cons m ms ih =>
    rw [moments_cons, List.forall_mem_cons] at hms ⊢
    exact ⟨h, ih (h.perform hms.1) hms.2⟩

/-- What every legal move of a sound bus keeps holds after each of a row of legal moves. -/
theorem kept_performAll {P : Bus → Prop}
    (hmove : ∀ s m, Sound s → s.Legal m → P s → P (s.perform m)) (hsound : b.Sound) (h : P b)
    (hms : ∀ m ∈ b.moments ms, m.Legal) :
    (∀ m ∈ b.moments ms, P m.after) ∧ P (b.performAll ms) := by
  induction ms generalizing b with
  | nil => exact ⟨by simp, h⟩
  | cons m ms ih =>
    rw [moments_cons, List.forall_mem_cons] at hms ⊢
    obtain ⟨hm, hms⟩ := hms
    have hfirst : P (b.perform m) := hmove b m hsound hm h
    obtain ⟨hmoments, hend⟩ := ih (hsound.perform hm) hfirst hms
    exact ⟨⟨hfirst, hmoments⟩, hend⟩

/-! ### Settled again after an arrival -/

theorem Settled.arrive (hs : b.Settled) {t : Ticket} {c : Cell} (hacc : b.accepts c = true) :
    (b.perform (.arrive t c)).Settled where
  idle h0 := by
    rw [active_perform] at h0
    cases h0
  busy d hd _ hw := by
    rw [current_perform] at hd
    cases hd
    have hsame : (b.perform (.arrive t c)).hasWaiters c.direction = b.hasWaiters c.direction :=
      hasWaiters_congr fun p => by rw [waiting_perform]
    rw [hsame, hasWaiters_eq_false.2 (hs.waiting_of_accepts hacc)] at hw
    cases hw

theorem hasWaiters_enqueue {t : Ticket} {c : Cell} {d : Direction} (h : b.hasWaiters d = true) :
    (b.perform (.enqueue t c)).hasWaiters d = true := by
  obtain ⟨p, hp⟩ := hasWaiters_eq_true.1 h
  refine hasWaiters_eq_true.2 ⟨p, ?_⟩
  rw [waiting_perform, PerCell.get_set]
  split_ifs
  · simp
  · exact hp

theorem yields_of_refused (hs : b.Settled) {c : Cell} (hacc : b.accepts c = false)
    (hc : b.current = some c.direction) (hroom : b.active < b.config.capacity) :
    b.yields c.direction = true := by
  by_contra hy
  rw [Bool.not_eq_true] at hy
  have hnone := hasWaiters_eq_false.1 (hs.no_waiters hc hroom hy)
  have htrue : b.accepts c = true :=
    accepts_eq_true.2 (Or.inr ⟨hc, hroom, hnone c.priority, fun _ => hnone .elevated, hy⟩)
  rw [htrue] at hacc
  cases hacc

theorem Settled.enqueue (hs : b.Settled) {t : Ticket} {c : Cell} (hacc : b.accepts c = false) :
    (b.perform (.enqueue t c)).Settled where
  idle h0 := by
    rw [active_perform] at h0
    exact absurd h0 (active_ne_zero_of_refused hacc)
  busy d hd hroom hw := by
    -- the new waiter is refused by a yielding bus, or the bus yielded to others before
    have hy : b.yields d = true := by
      by_cases hcd : c.direction = d
      · subst hcd
        exact yields_of_refused hs hacc hd hroom
      · refine hs.busy d hd hroom ?_
        rw [← hw]
        refine (hasWaiters_congr fun p => ?_).symm
        rw [waiting_perform, PerCell.get_set, if_neg]
        rintro rfl
        exact hcd rfl
    rw [yields_eq_true] at hy ⊢
    exact ⟨hy.1, hasWaiters_enqueue hy.2⟩

/-! ### Settled again after a departure -/

/-- Letting in whoever may go makes legal moves and settles a sound bus. -/
theorem legal_dispatchMoves (h : b.Sound) :
    (∀ m ∈ b.moments b.dispatchMoves, m.Legal) ∧ (b.performAll b.dispatchMoves).Settled := by
  have hroom : b.config.capacity - b.active + b.active ≤ b.config.capacity := by
    have := h.slots.active_le
    omega
  cases hc : b.current with
  | some d =>
    have hpos : b.active ≠ 0 := fun h0 => by
      rw [h.slots.current_eq_none.2 h0] at hc
      cases hc
    cases hy : b.yields d with
    -- a yielding bus lets nobody in, and that is how it may rest
    | true =>
      simp only [dispatchMoves, hc, hy, ↓reduceIte]
      refine ⟨by simp, fun h0 => absurd h0 hpos, ?_⟩
      intro d' hd' _ _
      rw [performAll_nil, hc] at hd'
      cases hd'
      exact hy
    | false =>
      simp only [dispatchMoves, hc, hy, Bool.false_eq_true, ↓reduceIte]
      exact ⟨legal_serveMoves hroom (.refill hc hy),
        settled_serveMoves none hc (Nat.pos_of_ne_zero hpos) h.slots.active_le⟩
  | none =>
    have h0 : b.active = 0 := h.slots.current_eq_none.1 hc
    cases hn : b.nextTurn with
    | none =>
      simp only [dispatchMoves, hc, hn]
      refine ⟨by simp, fun _ c => nextTurn_eq_none hn c, ?_⟩
      intro d hd _ _
      rw [performAll_nil, hc] at hd
      cases hd
    | some turn =>
      obtain ⟨d, why⟩ := turn
      simp only [dispatchMoves, hc, hn]
      have hlegal := legal_serveMoves hroom (.start h0 hn)
      refine ⟨hlegal, ?_⟩
      -- the first boarding starts the bus, the others fill it up
      obtain ⟨room, hcap⟩ := Nat.exists_eq_add_one.2 h.slots.capacity_pos
      rw [h0, Nat.sub_zero, hcap]
      obtain ⟨t, c, rfl, -, hserve⟩ :=
        serveMoves_of_waiters (hasWaiters_of_nextTurn hn) (some why) room
      rw [hserve, performAll_cons]
      have hone : (b.perform (.board t c (some why))).active = 1 := by rw [active_perform, h0]
      have hfill := settled_serveMoves (some why) (current_perform b (.board t c (some why)))
      rw [hone, config_perform, hcap] at hfill
      exact hfill Nat.one_pos (by omega)

/-! ### Operations and runs -/

theorem legal_cons_dispatch (h : b.Sound) (hm : b.Legal m) :
    (∀ m' ∈ b.moments (m :: (b.perform m).dispatchMoves), m'.Legal) ∧
      (b.performAll (m :: (b.perform m).dispatchMoves)).Settled := by
  obtain ⟨hms, hs⟩ := legal_dispatchMoves (h.perform hm)
  rw [moments_cons, List.forall_mem_cons]
  exact ⟨⟨hm, hms⟩, hs⟩

/-- An operation on a sound and settled bus makes legal moves and leaves a settled bus. -/
theorem legal_moves (h : b.Sound) (hs : b.Settled) (op : Op) :
    (∀ m ∈ b.moments (b.moves op), m.Legal) ∧ (b.performAll (b.moves op)).Settled := by
  have hsingle : ∀ m, b.Legal m → (b.perform m).Settled →
      (∀ m' ∈ b.moments [m], m'.Legal) ∧ (b.performAll [m]).Settled := by
    intro m hm hs'
    rw [moments_cons, List.forall_mem_cons]
    exact ⟨⟨hm, by simp⟩, hs'⟩
  have hrow := b.row_moves op
  generalize b.moves op = ms at hrow ⊢
  cases hrow with
  | nothing => exact ⟨by simp, hs⟩
  | arrive hacc => exact hsingle _ (.arrive hs hacc) (hs.arrive hacc)
  | enqueue hacc => exact hsingle _ (.enqueue hs hacc) (hs.enqueue hacc)
  | collect ht => exact hsingle _ (.collect hs ht) ⟨hs.idle, hs.busy⟩
  | refuse => exact hsingle _ (.refuse hs) ⟨hs.idle, hs.busy⟩
  | vacate hmem => exact legal_cons_dispatch h (.vacate hs hmem)
  | leave hmem => exact legal_cons_dispatch h (.leave hs hmem)

theorem Sound.step (h : b.Sound) (hs : b.Settled) (op : Op) : (b.step op).2.Sound := by
  rw [step_eq_performAll]
  exact h.performAll (legal_moves h hs op).1

theorem Settled.step (hs : b.Settled) (h : b.Sound) (op : Op) : (b.step op).2.Settled := by
  rw [step_eq_performAll]
  exact (legal_moves h hs op).2

/-- What a run does to a sound and settled bus. -/
theorem legal_trace (h : b.Sound) (hs : b.Settled) (ops : List Op) :
    (∀ m ∈ b.history ops, m.Legal) ∧ (b.run ops).2.Settled := by
  induction ops generalizing b with
  | nil => exact ⟨by simp [history, trace], hs⟩
  | cons op ops ih =>
    obtain ⟨hms, hs'⟩ := ih (h.step hs op) (hs.step h op)
    refine ⟨?_, hs'⟩
    rw [history, trace, moments_append, ← step_eq_performAll]
    intro m hm
    rcases List.mem_append.1 hm with hm | hm
    · exact (legal_moves h hs op).1 m hm
    · exact hms m hm

variable {config : Config}

theorem sound_new (hc : config.valid = true) : (Bus.new config).Sound := by
  have hpos : 0 < config.capacity := Nat.pos_of_ne_zero (by simpa [Config.valid] using hc)
  refine ⟨⟨hpos, Nat.zero_le _, rfl, fun c => ?_, by simp [new], by simp [new]⟩, ?_⟩
  · simp [new]
  · constructor <;> simp [new]

theorem settled_new (config : Config) : (Bus.new config).Settled where
  idle _ c := by simp [new]
  busy d hd := by cases hd

theorem Reachable.sound (h : b.Reachable) : b.Sound := by
  obtain ⟨hc, ops, hrun⟩ := h
  rw [← hrun, run_eq_performAll]
  exact (sound_new hc).performAll (legal_trace (sound_new hc) (settled_new _) ops).1

theorem Reachable.settled (h : b.Reachable) : b.Settled := by
  obtain ⟨hc, ops, hrun⟩ := h
  rw [← hrun]
  exact (legal_trace (sound_new hc) (settled_new _) ops).2

/-- Every moment of a run is a legal move of a sound bus. -/
theorem Reachable.history (h : b.Reachable) (ops : List Op) :
    ∀ m ∈ b.history ops, m.Legal ∧ m.bus.Sound := by
  have hlegal := (legal_trace h.sound h.settled ops).1
  exact fun m hm => ⟨hlegal m hm, h.sound.moments hlegal m hm⟩

theorem reachable_new (hc : config.valid = true) : (Bus.new config).Reachable :=
  ⟨hc, [], rfl⟩

end Bus

end HalfDuplex

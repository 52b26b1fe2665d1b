import HalfDuplex.Proofs.Rest

/-!
# Cycles

A cycle begins when an empty bus gives away its first slot.  It begins on arrival, or because the
bus has just become empty and a direction was chosen.

* `Bus.cycles` : the cycles that begin in a run.
* `Bus.begins_moves` : an operation begins at most one cycle; if it does without being an arrival,
  one slot was held before, and the direction is the one that the bus chooses.
* `Bus.service_performAll` : what a bus remembers of its cycles, the last direction and the streak,
  after any moves.
* `Bus.countedCycles_run` : the cycles counted in the statistics are these cycles.
-/

namespace HalfDuplex

/-- The beginning of a cycle. -/
structure Cycle where
  direction : Direction
  /-- Why the direction was chosen, unless an arrival began the cycle. -/
  why : Option Reason
  deriving DecidableEq, Repr

/-- What a bus remembers of its cycles. -/
structure Service where
  /-- The direction of the last cycle. -/
  last : Option Direction
  streak : Nat
  deriving DecidableEq, Repr

/-- What is remembered once another cycle has begun. -/
def Service.after (s : Service) (k : Cycle) : Service where
  last := some k.direction
  streak :=
    if k.why = some .elevated then (if s.last = some k.direction then s.streak + 1 else 1) else 0

namespace Bus

/-- What a bus remembers of its cycles. -/
def service (b : Bus) : Service := ⟨b.lastServed, b.streak⟩

/-- The cycle that begins at this moment: the empty bus gives away its first slot. -/
def Moment.cycle? (m : Moment) : Option Cycle :=
  if m.bus.active = 0 then
    match m.move with
    | .arrive _ c => some ⟨c.direction, none⟩
    | .board _ c why => some ⟨c.direction, why⟩
    | _ => none
  else none

/-- The cycles that these moves begin. -/
def begun (b : Bus) (ms : List Move) : List Cycle := (b.moments ms).filterMap Moment.cycle?

/-- The cycles that begin in a run. -/
def cycles (b : Bus) (ops : List Op) : List Cycle := b.begun (b.trace ops)

/-- The buses before, between and after the operations of a run. -/
def stages (b : Bus) : List Op → List Bus
  | [] => [b]
  | op :: ops => b :: (b.step op).2.stages ops

variable {b : Bus} {ms : List Move}

@[simp] theorem begun_nil : b.begun [] = [] := rfl

theorem begun_cons (b : Bus) (m : Move) (ms : List Move) :
    b.begun (m :: ms) = (Moment.cycle? ⟨b, m⟩).toList ++ (b.perform m).begun ms := by
  unfold begun
  rw [moments_cons]
  cases h : Moment.cycle? ⟨b, m⟩ with
  | none => rw [List.filterMap_cons_none h]; rfl
  | some k => rw [List.filterMap_cons_some h]; rfl

theorem begun_append (b : Bus) (ms ms' : List Move) :
    b.begun (ms ++ ms') = b.begun ms ++ (b.performAll ms).begun ms' := by
  unfold begun
  rw [moments_append, List.filterMap_append]

theorem cycles_cons (b : Bus) (op : Op) (ops : List Op) :
    b.cycles (op :: ops) = b.begun (b.moves op) ++ (b.step op).2.cycles ops := by
  rw [cycles, trace, begun_append, ← step_eq_performAll]
  rfl

theorem mem_stages_self (b : Bus) (ops : List Op) : b ∈ b.stages ops := by
  cases ops with
  | nil => exact List.mem_cons_self
  | cons => exact List.mem_cons_self

theorem Sound.stages (h : b.Sound) (hs : b.Settled) (ops : List Op) :
    ∀ s ∈ b.stages ops, s.Sound := by
  induction ops generalizing b with
  | nil =>
    intro s hmem
    rw [List.mem_singleton.1 hmem]
    exact h
  | cons op ops ih =>
    rw [Bus.stages, List.forall_mem_cons]
    exact ⟨h, ih (h.step hs op) (hs.step h op)⟩

/-! ### What a move begins -/

theorem cycle?_arrive (t : Ticket) (c : Cell) : Moment.cycle? ⟨b, .arrive t c⟩ =
    if b.active = 0 then some ⟨c.direction, none⟩ else none := rfl

theorem cycle?_board (t : Ticket) (c : Cell) (why : Option Reason) :
    Moment.cycle? ⟨b, .board t c why⟩ =
      if b.active = 0 then some ⟨c.direction, why⟩ else none := rfl

theorem cycle?_of_not_admitted {m : Move} (h : m.admitted? = none) :
    Moment.cycle? ⟨b, m⟩ = none := by
  unfold Moment.cycle?
  split_ifs
  · cases m with
    | arrive | board => cases h
    | enqueue | collect | vacate | leave | refuse => rfl
  · rfl

theorem cycle?_of_admitted {m : Move} {t : Ticket} {c : Cell} (ha : m.admitted? = some (t, c))
    (h0 : b.active = 0) : ∃ why, Moment.cycle? ⟨b, m⟩ = some ⟨c.direction, why⟩ := by
  cases m with
  | arrive =>
    cases ha
    exact ⟨none, if_pos h0⟩
  | board _ _ why =>
    cases ha
    exact ⟨why, if_pos h0⟩
  | enqueue | collect | vacate | leave | refuse => cases ha

theorem cycle?_of_running {m : Move} (hrun : b.active ≠ 0) : Moment.cycle? ⟨b, m⟩ = none :=
  if_neg hrun

/-! ### What a bus remembers of its cycles -/

theorem service_occupy (b : Bus) (t : Ticket) (c : Cell) (why : Option Reason) :
    (b.occupy t c why).service =
      if b.active = 0 then b.service.after ⟨c.direction, why⟩ else b.service := by
  unfold occupy
  split_ifs <;> rfl

theorem service_perform (b : Bus) (m : Move) :
    (b.perform m).service = (Moment.cycle? ⟨b, m⟩).toList.foldl Service.after b.service := by
  cases m with
  | arrive t c =>
    have h := service_occupy b.issued t c none
    rw [cycle?_arrive]
    by_cases h0 : b.active = 0
    · rw [if_pos h0]
      exact h.trans (if_pos h0)
    · rw [if_neg h0]
      exact h.trans (if_neg h0)
  | board t c why =>
    have h := service_occupy { b with waiting := b.waiting.set c (b.waiting.get c).tail } t c why
    rw [cycle?_board]
    by_cases h0 : b.active = 0
    · rw [if_pos h0]
      exact h.trans (if_pos h0)
    · rw [if_neg h0]
      exact h.trans (if_neg h0)
  | enqueue | collect | vacate | leave | refuse =>
    rw [cycle?_of_not_admitted rfl]
    rfl

/-- A bus remembers of any moves the cycles that they begin, and nothing else. -/
theorem service_performAll (b : Bus) (ms : List Move) :
    (b.performAll ms).service = (b.begun ms).foldl Service.after b.service := by
  induction ms generalizing b with
  | nil => rfl
  | cons m ms ih => rw [performAll_cons, ih, begun_cons, List.foldl_append, service_perform]

theorem service_step (b : Bus) (op : Op) :
    (b.step op).2.service = (b.begun (b.moves op)).foldl Service.after b.service := by
  rw [step_eq_performAll, service_performAll]

/-! ### The count in the statistics -/

theorem countedCycles_occupy (b : Bus) (t : Ticket) (c : Cell) (why : Option Reason) :
    (b.occupy t c why).stats.cycles = b.stats.cycles + if b.active = 0 then 1 else 0 := by
  unfold occupy
  split_ifs <;> rfl

theorem countedCycles_perform (b : Bus) (m : Move) :
    (b.perform m).stats.cycles = b.stats.cycles + (Moment.cycle? ⟨b, m⟩).toList.length := by
  cases m with
  | arrive t c =>
    have h : (b.perform (.arrive t c)).stats.cycles =
        b.stats.cycles + if b.active = 0 then 1 else 0 := countedCycles_occupy b.issued t c none
    rw [h, cycle?_arrive]
    split_ifs <;> rfl
  | board t c why =>
    have h : (b.perform (.board t c why)).stats.cycles =
        b.stats.cycles + if b.active = 0 then 1 else 0 :=
      countedCycles_occupy { b with waiting := b.waiting.set c (b.waiting.get c).tail } t c why
    rw [h, cycle?_board]
    split_ifs <;> rfl
  | enqueue | collect | vacate | leave | refuse =>
    rw [cycle?_of_not_admitted rfl]
    rfl

/-- The cycles counted in the statistics are those that begin in the run. -/
theorem countedCycles_run (b : Bus) (ops : List Op) :
    (b.run ops).2.stats.cycles = b.stats.cycles + (b.cycles ops).length := by
  rw [run_eq_performAll, cycles]
  generalize b.trace ops = ms
  induction ms generalizing b with
  | nil => rfl
  | cons m ms ih =>
    rw [performAll_cons, ih, begun_cons, List.length_append, countedCycles_perform, Nat.add_assoc]

/-! ### The cycles of an operation -/

/-- Who boards the empty bus boards in the direction that the bus chooses. -/
theorem Turning.chosen {d : Direction} {why : Option Reason} (ht : b.Turning d why)
    (h : b.SlotsFit) (h0 : b.active = 0) : ∃ r, why = some r ∧ b.nextTurn = some (d, r) := by
  have hnone : b.current = none := h.current_eq_none.2 h0
  cases ht with
  | @start r _ hn => exact ⟨r, rfl, hn⟩
  | follow hc | refill hc =>
    rw [hnone] at hc
    cases hc

theorem begun_serveMoves {d : Direction} {why : Option Reason} {room : Nat} (hrun : b.active ≠ 0) :
    b.begun (serveMoves d why room b) = [] := by
  induction room generalizing b with
  | zero => rfl
  | succ room ih =>
    cases hp : b.popWaiter? d with
    | none => simp only [serveMoves, hp, begun_nil]
    | some next =>
      obtain ⟨t, c, b'⟩ := next
      have hrun' : (b.perform (.board t c why)).active ≠ 0 := by
        rw [active_perform]
        exact Nat.succ_ne_zero _
      simp only [serveMoves, hp]
      rw [begun_cons, cycle?_board, if_neg hrun, ih hrun']
      rfl

theorem begun_dispatchMoves_running (h : b.Sound) (hrun : b.active ≠ 0) :
    b.begun b.dispatchMoves = [] := by
  cases hc : b.current with
  | none => exact absurd (h.slots.current_eq_none.1 hc) hrun
  | some d =>
    simp only [dispatchMoves, hc]
    split_ifs
    · rfl
    · exact begun_serveMoves hrun

theorem dispatchMoves_of_nextTurn (h : b.Sound) (h0 : b.active = 0) {d : Direction} {r : Reason}
    (hn : b.nextTurn = some (d, r)) : ∃ t c room, c.direction = d ∧ b.Front t c ∧
      b.dispatchMoves = .board t c (some r) ::
        serveMoves d (some r) room (b.perform (.board t c (some r))) := by
  obtain ⟨room, hcap⟩ := Nat.exists_eq_add_one.2 h.slots.capacity_pos
  obtain ⟨t, c, hd, hf, hserve⟩ := serveMoves_of_waiters (hasWaiters_of_nextTurn hn) (some r) room
  refine ⟨t, c, room, hd, hf, ?_⟩
  simp only [dispatchMoves, h.slots.current_eq_none.2 h0, hn]
  rw [h0, Nat.sub_zero, hcap, hserve]

theorem begun_dispatchMoves_empty (h : b.Sound) (h0 : b.active = 0) :
    b.begun b.dispatchMoves = (b.nextTurn.map fun x => ⟨x.1, some x.2⟩).toList := by
  cases hn : b.nextTurn with
  | none =>
    simp only [dispatchMoves, h.slots.current_eq_none.2 h0, hn]
    rfl
  | some turn =>
    obtain ⟨t, c, room, hd, -, hmoves⟩ := dispatchMoves_of_nextTurn h h0 hn
    have hrun : (b.perform (.board t c (some turn.2))).active ≠ 0 := by
      rw [active_perform]
      exact Nat.succ_ne_zero _
    rw [hmoves, begun_cons, cycle?_board, if_pos h0, begun_serveMoves hrun, hd]
    rfl

/-- The cycles that one operation on a bus can begin. -/
inductive Begins (b : Bus) : List Cycle → Prop where
  | nothing : Begins b []
  /-- A request arrives at the empty bus. -/
  | arrival {d : Direction} : b.active = 0 → Begins b [⟨d, none⟩]
  /-- The only slot held is given back. -/
  | turn {d : Direction} {r : Reason} : b.active = 1 → b.nextTurn = some (d, r) →
      Begins b [⟨d, some r⟩]

theorem begins_vacate (h : b.Sound) (hs : b.Settled) {t : Ticket} {c : Cell}
    (hmem : (t, c) ∈ b.holders) :
    b.Begins (b.begun (.vacate t c :: (b.perform (.vacate t c)).dispatchMoves)) := by
  have hsound : (b.perform (.vacate t c)).Sound := h.perform (.vacate hs hmem)
  have hpos : 0 < b.active := h.slots.holders_length ▸ List.length_pos_of_mem hmem
  have hactive : (b.perform (.vacate t c)).active = b.active - 1 := active_perform b _
  rw [begun_cons, cycle?_of_not_admitted rfl]
  by_cases h1 : b.active = 1
  · rw [begun_dispatchMoves_empty hsound (by omega)]
    -- the choice looks at the queues, and those have not changed
    have hnext : (b.perform (.vacate t c)).nextTurn = b.nextTurn := rfl
    rw [hnext]
    cases hn : b.nextTurn with
    | none => exact .nothing
    | some turn => exact .turn h1 hn
  · rw [begun_dispatchMoves_running hsound (by omega)]
    exact .nothing

theorem begun_leave (h : b.Sound) (hs : b.Settled) {t : Ticket} {c : Cell}
    (hmem : t ∈ b.waiting.get c) :
    b.begun (.leave t c :: (b.perform (.leave t c)).dispatchMoves) = [] := by
  have hsound : (b.perform (.leave t c)).Sound := h.perform (.leave hs hmem)
  have hrun : b.active ≠ 0 := by
    intro h0
    rw [hs.idle h0 c] at hmem
    cases hmem
  rw [begun_cons, cycle?_of_not_admitted rfl, begun_dispatchMoves_running hsound hrun]
  rfl

/-- **An operation begins at most one cycle**, and only on an empty bus or by giving back the last
slot. -/
theorem begins_moves (h : b.Sound) (hs : b.Settled) (op : Op) :
    b.Begins (b.begun (b.moves op)) := by
  have hrow := b.row_moves op
  generalize b.moves op = ms at hrow ⊢
  cases hrow with
  | nothing => exact .nothing
  | arrive =>
    rw [begun_cons, cycle?_arrive]
    by_cases h0 : b.active = 0
    · rw [if_pos h0]
      exact .arrival h0
    · rw [if_neg h0]
      exact .nothing
  | enqueue | collect | refuse =>
    rw [begun_cons, cycle?_of_not_admitted rfl]
    exact .nothing
  | vacate hmem => exact begins_vacate h hs hmem
  | leave hmem =>
    rw [begun_leave h hs hmem]
    exact .nothing

end Bus

end HalfDuplex

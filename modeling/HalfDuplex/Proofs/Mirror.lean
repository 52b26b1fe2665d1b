import HalfDuplex.Proofs.OldestFirst

/-!
# Neither direction is favoured

A bus treats its two directions alike.  If all requests of a run are made for the opposite
direction, everything happens as before with the directions exchanged: the same tickets are
admitted, queued, woken, withdrawn and refused, for the same reasons.

* `Bus.mirror` : a bus with its directions exchanged; `Op.mirror`, `Answer.mirror`, `Cycle.mirror`
  and `Bus.Move.mirror` do the same for operations, answers, cycles and moves.
* `Bus.nextTurn_mirror` : the choice of a direction is symmetric.
* `Bus.moves_mirror`, `Bus.step_mirror` : an operation is symmetric.
* `Bus.run_mirror` : a run is symmetric.

The definitions are not symmetric to look at: the queues are searched in a fixed order, and a tie
between oldest waiters would go to one side.  It matters that no ticket waits twice: so the search
finds the same queue in any order, and there are no such ties.
-/

namespace HalfDuplex

namespace Direction

theorem opposite_inj {d d' : Direction} : d.opposite = d'.opposite ↔ d = d' := by
  cases d <;> cases d' <;> simp [opposite]

theorem map_opposite_eq_some {o : Option Direction} {d : Direction} :
    o.map opposite = some d.opposite ↔ o = some d := by
  cases o with
  | none => simp
  | some d' => simp [opposite_inj]

end Direction

namespace Cell

/-- The cell of the same priority in the other direction. -/
def mirror (c : Cell) : Cell := ⟨c.direction.opposite, c.priority⟩

@[simp] theorem mirror_mirror (c : Cell) : c.mirror.mirror = c := by
  simp [mirror]

@[simp] theorem direction_mirror (c : Cell) : c.mirror.direction = c.direction.opposite := rfl

@[simp] theorem priority_mirror (c : Cell) : c.mirror.priority = c.priority := rfl

theorem mirror_inj {c c' : Cell} : c.mirror = c'.mirror ↔ c = c' := by
  constructor
  · intro h
    rw [← mirror_mirror c, h, mirror_mirror]
  · exact congrArg mirror

end Cell

namespace PerCell

variable {α : Type}

/-- The values with the directions exchanged. -/
def mirror (f : PerCell α) : PerCell α :=
  ⟨f.inboundElevated, f.inboundNormal, f.outboundElevated, f.outboundNormal⟩

@[simp] theorem get_mirror (f : PerCell α) (c : Cell) : f.mirror.get c = f.get c.mirror := by
  obtain ⟨d, p⟩ := c
  cases d <;> cases p <;> rfl

theorem mirror_set (f : PerCell α) (c : Cell) (a : α) :
    (f.set c a).mirror = f.mirror.set c.mirror a := by
  obtain ⟨d, p⟩ := c
  cases d <;> cases p <;> rfl

end PerCell

namespace Stats

/-- The counters with the directions exchanged. -/
def mirror (s : Stats) : Stats := { s with outbound := s.inbound, inbound := s.outbound }

theorem mirror_countAdmission (s : Stats) (c : Cell) (n : Nat) :
    (s.countAdmission c n).mirror = s.mirror.countAdmission c.mirror n := by
  obtain ⟨d, p⟩ := c
  cases d <;> rfl

end Stats

/-- The fault that is reported when the directions are exchanged. -/
def Fault.mirror : Fault → Fault
  | .unmatchedRelease c => .unmatchedRelease c.mirror
  | .wouldBlock c => .wouldBlock c.mirror
  | .timedOut c waited => .timedOut c.mirror waited
  | fault => fault

/-- The same operation for the opposite direction. -/
def Op.mirror : Op → Op
  | .request c => .request c.mirror
  | .tryRequest c => .tryRequest c.mirror
  | .release c => .release c.mirror
  | op => op

/-- The answer when the directions are exchanged.  Only a refused release names a direction. -/
def Answer.mirror : Answer → Answer
  | .refused fault => .refused fault.mirror
  | answer => answer

/-- The same cycle in the opposite direction. -/
def Cycle.mirror (k : Cycle) : Cycle := ⟨k.direction.opposite, k.why⟩

namespace Bus

/-- The same move in the opposite direction. -/
def Move.mirror : Move → Move
  | arrive t c => arrive t c.mirror
  | enqueue t c => enqueue t c.mirror
  | board t c why => board t c.mirror why
  | collect t => collect t
  | vacate t c => vacate t c.mirror
  | leave t c => leave t c.mirror
  | refuse => refuse

/-- The bus with its directions exchanged. -/
def mirror (b : Bus) : Bus :=
  { b with
    current := b.current.map Direction.opposite
    lastServed := b.lastServed.map Direction.opposite
    waiting := b.waiting.mirror
    held := b.held.mirror
    holders := b.holders.map fun h => (h.1, h.2.mirror)
    stats := b.stats.mirror }

variable {b : Bus} {d : Direction} {t : Ticket} {c : Cell} {m : Move} {op : Op}

/-! ### The choices of a bus -/

theorem hasWaitersIn_mirror (b : Bus) (c : Cell) :
    b.mirror.hasWaitersIn c.mirror = b.hasWaitersIn c := by
  simp [hasWaitersIn, mirror]

theorem hasWaiters_mirror (b : Bus) (d : Direction) :
    b.mirror.hasWaiters d.opposite = b.hasWaiters d := by
  have he := hasWaitersIn_mirror b ⟨d, .elevated⟩
  have hn := hasWaitersIn_mirror b ⟨d, .normal⟩
  simp only [Cell.mirror] at he hn
  rw [hasWaiters, he, hn, hasWaiters]

theorem yields_mirror (b : Bus) (d : Direction) : b.mirror.yields d.opposite = b.yields d := by
  rw [yields, hasWaiters_mirror]
  rfl

theorem accepts_mirror (b : Bus) (c : Cell) : b.mirror.accepts c.mirror = b.accepts c := by
  have hcurrent : b.mirror.current = some c.direction.opposite ↔ b.current = some c.direction :=
    Direction.map_opposite_eq_some
  have helevated := hasWaitersIn_mirror b ⟨c.direction, .elevated⟩
  simp only [Cell.mirror] at helevated
  simp only [accepts, hasWaitersIn_mirror, Cell.direction_mirror, Cell.priority_mirror, helevated,
    yields_mirror, hcurrent]
  rfl

theorem preferred?_mirror (b : Bus) : b.mirror.preferred? = b.preferred?.map .opposite := by
  have ho : b.mirror.hasWaitersIn ⟨.outbound, .elevated⟩ = b.hasWaitersIn ⟨.inbound, .elevated⟩ :=
    hasWaitersIn_mirror b ⟨.inbound, .elevated⟩
  have hi : b.mirror.hasWaitersIn ⟨.inbound, .elevated⟩ = b.hasWaitersIn ⟨.outbound, .elevated⟩ :=
    hasWaitersIn_mirror b ⟨.outbound, .elevated⟩
  simp only [preferred?, ho, hi]
  cases b.hasWaitersIn ⟨.outbound, .elevated⟩ <;> cases b.hasWaitersIn ⟨.inbound, .elevated⟩ <;> rfl

theorem exhausted_mirror (b : Bus) (d : Direction) :
    b.mirror.exhausted d.opposite = b.exhausted d := by
  have hlast : b.mirror.lastServed = some d.opposite ↔ b.lastServed = some d :=
    Direction.map_opposite_eq_some
  simp only [exhausted, hlast]
  rfl

theorem oldestWaiter?_mirror (b : Bus) (d : Direction) :
    b.mirror.oldestWaiter? d.opposite = b.oldestWaiter? d := by
  cases d <;> rfl

/-- A tie between the oldest waiters is decided by their tickets, and those differ. -/
theorem oldestSide_mirror (h : b.TicketsFit) (hw : ∀ d, b.hasWaiters d = true) :
    b.mirror.oldestSide = b.oldestSide.opposite := by
  generalize hside : b.oldestSide = d
  obtain ⟨u, hu, hfirst⟩ := oldestSide_eq h (hw d) (hw d.opposite) hside
  obtain ⟨v, hv⟩ := exists_oldestWaiter? (hw d.opposite)
  have huv : u < v := hfirst v (oldestWaiter?_eq_some h.sorted hv).1
  rw [← oldestWaiter?_mirror] at hu hv
  rw [Direction.opposite_opposite] at hv
  cases d with
  | outbound =>
    simp only [Direction.opposite] at hu ⊢
    simp only [oldestSide, hu, hv, huv, ↓reduceIte]
  | inbound =>
    simp only [Direction.opposite] at hu ⊢
    simp only [oldestSide, hu, hv, if_neg (Nat.not_lt.2 (Nat.le_of_lt huv))]

theorem contested_mirror (h : b.TicketsFit) (hw : ∀ d, b.hasWaiters d = true) :
    b.mirror.contested = (b.contested.1.opposite, b.contested.2) := by
  cases hp : b.preferred? with
  | some d =>
    have hp' : b.mirror.preferred? = some d.opposite := by rw [preferred?_mirror, hp]; rfl
    simp only [contested, hp, hp', exhausted_mirror]
    split_ifs <;> rfl
  | none =>
    have hp' : b.mirror.preferred? = none := by rw [preferred?_mirror, hp]; rfl
    have hfair : b.mirror.config.fairness = b.config.fairness := rfl
    have hlast : b.mirror.lastServed = b.lastServed.map .opposite := rfl
    simp only [contested, hp, hp', hfair, hlast, oldestSide_mirror h hw]
    cases b.config.fairness <;> cases b.lastServed <;> rfl

/-- **The choice of a direction is symmetric.** -/
theorem nextTurn_mirror (h : b.TicketsFit) :
    b.mirror.nextTurn = b.nextTurn.map fun turn => (turn.1.opposite, turn.2) := by
  have ho : b.mirror.hasWaiters .outbound = b.hasWaiters .inbound := hasWaiters_mirror b .inbound
  have hi : b.mirror.hasWaiters .inbound = b.hasWaiters .outbound := hasWaiters_mirror b .outbound
  cases hout : b.hasWaiters .outbound with
  | false => cases hin : b.hasWaiters .inbound <;> simp only [nextTurn, ho, hi, hout, hin] <;> rfl
  | true =>
    cases hin : b.hasWaiters .inbound with
    | false =>
      simp only [nextTurn, ho, hi, hout, hin]
      rfl
    | true =>
      have hw : ∀ d, b.hasWaiters d = true := by
        intro d
        cases d <;> assumption
      simp only [nextTurn, ho, hi, hout, hin, contested_mirror h hw]
      rfl

/-! ### One move -/

theorem beginCycle_mirror (b : Bus) (d : Direction) (why : Option Reason) :
    b.mirror.beginCycle d.opposite why = (b.beginCycle d why).mirror := by
  have hlast : ∀ e : Direction, b.mirror.lastServed = some e.opposite ↔ b.lastServed = some e :=
    fun e => Direction.map_opposite_eq_some
  simp only [beginCycle, hlast]
  rfl

theorem occupy_mirror (b : Bus) (t : Ticket) (c : Cell) (why : Option Reason) :
    b.mirror.occupy t c.mirror why = (b.occupy t c why).mirror := by
  have hslot : ∀ s : Bus,
      { s.mirror with
        active := s.active + 1
        current := some c.mirror.direction
        held := s.held.mirror.set c.mirror (s.held.mirror.get c.mirror + 1)
        holders := (t, c.mirror) :: s.mirror.holders
        stats := s.stats.mirror.countAdmission c.mirror (s.active + 1) } =
      mirror { s with
        active := s.active + 1
        current := some c.direction
        held := s.held.set c (s.held.get c + 1)
        holders := (t, c) :: s.holders
        stats := s.stats.countAdmission c (s.active + 1) } := by
    intro s
    simp only [mirror, PerCell.mirror_set, PerCell.get_mirror, Cell.mirror_mirror,
      Stats.mirror_countAdmission]
    rfl
  have hactive : b.mirror.active = b.active := rfl
  unfold occupy
  rw [hactive, Cell.direction_mirror, beginCycle_mirror]
  split_ifs
  · exact hslot (b.beginCycle c.direction why)
  · exact hslot b

/-- **A move is symmetric.** -/
theorem perform_mirror (b : Bus) (m : Move) :
    b.mirror.perform m.mirror = (b.perform m).mirror := by
  cases m with
  | arrive t c =>
    have h := occupy_mirror b.issued t c none
    exact congrArg countImmediate h
  | enqueue t c =>
    simp only [perform, Move.mirror, mirror, issued, PerCell.mirror_set, PerCell.get_mirror,
      Cell.mirror_mirror]
  | board t c why =>
    have h := occupy_mirror { b with waiting := b.waiting.set c (b.waiting.get c).tail } t c why
    have hbus : { b.mirror with
          waiting := b.mirror.waiting.set c.mirror (b.mirror.waiting.get c.mirror).tail } =
        mirror { b with waiting := b.waiting.set c (b.waiting.get c).tail } := by
      simp only [mirror, PerCell.mirror_set, PerCell.get_mirror, Cell.mirror_mirror]
    rw [← hbus] at h
    exact congrArg (fun s => s.grant t) h
  | collect t => rfl
  | vacate t c =>
    simp only [perform, vacated, Move.mirror, mirror, PerCell.mirror_set, PerCell.get_mirror,
      Cell.mirror_mirror, List.filter_map, apply_ite (Option.map Direction.opposite),
      Option.map_none]
    rfl
  | leave t c =>
    simp only [perform, unqueued, Move.mirror, mirror, PerCell.mirror_set, PerCell.get_mirror,
      Cell.mirror_mirror]
    rfl
  | refuse => rfl

theorem performAll_mirror (b : Bus) (ms : List Move) :
    b.mirror.performAll (ms.map Move.mirror) = (b.performAll ms).mirror := by
  induction ms generalizing b with
  | nil => rfl
  | cons m ms ih => rw [List.map_cons, performAll_cons, perform_mirror, ih, performAll_cons]

/-! ### The moves of an operation -/

theorem popWaiter?_mirror (b : Bus) (d : Direction) : b.mirror.popWaiter? d.opposite =
    (b.popWaiter? d).map fun next => (next.1, next.2.1.mirror, next.2.2.mirror) := by
  have hget : ∀ p, b.mirror.waiting.get ⟨d.opposite, p⟩ = b.waiting.get ⟨d, p⟩ := by
    intro p
    simp only [mirror, PerCell.get_mirror, Cell.mirror, Direction.opposite_opposite]
  simp only [popWaiter?, hget]
  cases b.waiting.get ⟨d, .elevated⟩ with
  | cons t rest => simp only [Option.map_some, mirror, PerCell.mirror_set, Cell.mirror]
  | nil =>
    cases b.waiting.get ⟨d, .normal⟩ with
    | cons t rest => simp only [Option.map_some, mirror, PerCell.mirror_set, Cell.mirror]
    | nil => rfl

theorem serveMoves_mirror (d : Direction) (why : Option Reason) (room : Nat) (b : Bus) :
    serveMoves d.opposite why room b.mirror = (serveMoves d why room b).map Move.mirror := by
  induction room generalizing b with
  | zero => rfl
  | succ room ih =>
    cases hp : b.popWaiter? d with
    | none => simp only [serveMoves, popWaiter?_mirror, hp, Option.map_none, List.map_nil]
    | some next =>
      obtain ⟨t, c, b'⟩ := next
      simp only [serveMoves, popWaiter?_mirror, hp, Option.map_some, List.map_cons, ← ih,
        ← perform_mirror]
      rfl

theorem dispatchMoves_mirror (h : b.TicketsFit) :
    b.mirror.dispatchMoves = b.dispatchMoves.map Move.mirror := by
  have hcurrent : b.mirror.current = b.current.map .opposite := rfl
  have hroom : b.mirror.config.capacity - b.mirror.active = b.config.capacity - b.active := rfl
  cases hc : b.current with
  | some d =>
    simp only [dispatchMoves, hcurrent, hc, Option.map_some, yields_mirror, hroom,
      serveMoves_mirror]
    split_ifs <;> rfl
  | none =>
    cases hn : b.nextTurn with
    | none => simp only [dispatchMoves, hcurrent, hc, nextTurn_mirror h, hn, Option.map_none,
        List.map_nil]
    | some turn => simp only [dispatchMoves, hcurrent, hc, nextTurn_mirror h, hn, Option.map_none,
        Option.map_some, hroom, serveMoves_mirror]

theorem oldestHolder?_mirror (b : Bus) (c : Cell) :
    b.mirror.oldestHolder? c.mirror = b.oldestHolder? c := by
  have hin : b.mirror.holdersIn c.mirror = b.holdersIn c := by
    simp only [holdersIn, mirror, List.filter_map, List.map_map, Function.comp_def,
      Cell.mirror_inj]
  rw [oldestHolder?, hin, oldestHolder?]

theorem cellOf?_mirror (b : Bus) (t : Ticket) :
    b.mirror.cellOf? t = (b.cellOf? t).map Cell.mirror := by
  simp only [cellOf?, mirror]
  induction b.holders with
  | nil => rfl
  | cons x l ih =>
    obtain ⟨u, c⟩ := x
    simp only [List.map_cons, List.lookup_cons, ih]
    cases t == u <;> rfl

theorem TicketsFit.mirror (h : b.TicketsFit) : b.mirror.TicketsFit := by
  have hwaiting : ∀ c, b.mirror.waiting.get c = b.waiting.get c.mirror := PerCell.get_mirror _
  have hholders : b.mirror.holders.map Prod.fst = b.holders.map Prod.fst := by
    simp only [Bus.mirror, List.map_map, Function.comp_def]
  constructor
  case sorted => exact fun c => hwaiting c ▸ h.sorted c.mirror
  case one_queue =>
    intro t c c' hc hc'
    rw [hwaiting] at hc hc'
    exact Cell.mirror_inj.1 (h.one_queue hc hc')
  case not_holding =>
    intro t c hc
    rw [hwaiting] at hc
    exact hholders ▸ h.not_holding hc
  case not_granted => exact fun {t c} hc => h.not_granted (hwaiting c ▸ hc)
  case holders_nodup => exact hholders ▸ h.holders_nodup
  case waiting_lt => exact fun {t c} hc => h.waiting_lt (hwaiting c ▸ hc)
  case holding_lt => exact fun {t} ht => h.holding_lt (hholders ▸ ht)
  case granted_lt => exact h.granted_lt

theorem queueOf?_mirror (h : b.TicketsFit) (t : Ticket) :
    b.mirror.queueOf? t = (b.queueOf? t).map Cell.mirror := by
  refine Option.ext fun c => ?_
  have hwaiting : b.mirror.waiting.get c = b.waiting.get c.mirror := PerCell.get_mirror _ _
  rw [h.mirror.queueOf?_eq_some_iff, hwaiting, ← h.queueOf?_eq_some_iff, Option.map_eq_some_iff]
  constructor
  · exact fun hq => ⟨c.mirror, hq, Cell.mirror_mirror c⟩
  · rintro ⟨c', hq, rfl⟩
    rw [Cell.mirror_mirror]
    exact hq

/-- **The moves of an operation are symmetric.** -/
theorem moves_mirror (h : b.Sound) (hs : b.Settled) (op : Op) :
    b.mirror.moves op.mirror = (b.moves op).map Move.mirror := by
  have hdispatch : ∀ m, b.Legal m → (b.mirror.perform m.mirror).dispatchMoves =
      (b.perform m).dispatchMoves.map Move.mirror := by
    intro m hm
    rw [perform_mirror, dispatchMoves_mirror (h.perform hm).tickets]
  cases op with
  | request c =>
    simp only [moves, Op.mirror, accepts_mirror]
    split_ifs <;> rfl
  | tryRequest c =>
    simp only [moves, Op.mirror, accepts_mirror]
    split_ifs <;> rfl
  | takeGrant t =>
    have hgranted : b.mirror.granted = b.granted := rfl
    simp only [moves, Op.mirror, hgranted]
    split_ifs <;> rfl
  | release c =>
    have holdest : b.mirror.oldestHolder? c.mirror = b.oldestHolder? c := oldestHolder?_mirror b c
    cases ho : b.oldestHolder? c with
    | none =>
      simp only [moves, Op.mirror, holdest, ho]
      rfl
    | some t =>
      have hrest := hdispatch (.vacate t c) (.vacate hs (mem_holders_of_oldest ho))
      simp only [moves, Op.mirror, holdest, ho, List.map_cons, ← hrest]
      rfl
  | releaseTicket t =>
    cases ho : b.cellOf? t with
    | none =>
      simp only [moves, Op.mirror, cellOf?_mirror, ho]
      rfl
    | some c =>
      have hrest := hdispatch (.vacate t c) (.vacate hs (mem_holders_of_cellOf ho))
      simp only [moves, Op.mirror, cellOf?_mirror, ho, Option.map_some, List.map_cons, ← hrest]
      rfl
  | withdraw t =>
    cases ho : b.queueOf? t with
    | none =>
      simp only [moves, Op.mirror, queueOf?_mirror h.tickets, ho]
      rfl
    | some c =>
      have hrest := hdispatch (.leave t c) (.leave hs (mem_waiting_of_queueOf ho))
      simp only [moves, Op.mirror, queueOf?_mirror h.tickets, ho, Option.map_some, List.map_cons,
        ← hrest]
      rfl

/-! ### Operations and runs -/

theorem step_mirror_snd (h : b.Sound) (hs : b.Settled) (op : Op) :
    (b.mirror.step op.mirror).2 = (b.step op).2.mirror := by
  rw [step_eq_performAll, moves_mirror h hs, performAll_mirror, step_eq_performAll]

theorem dispatch_mirror (h : b.Sound) (hm : b.Legal m) :
    (b.mirror.perform m.mirror).dispatch.1 = (b.perform m).dispatch.1 := by
  have hboarded : Move.boarded? ∘ Move.mirror = Move.boarded? := by
    funext m
    cases m <;> rfl
  rw [perform_mirror, dispatch_eq, dispatch_eq, dispatchMoves_mirror (h.perform hm).tickets,
    List.filterMap_map, hboarded]

theorem step_mirror_fst (h : b.Sound) (hs : b.Settled) (op : Op) :
    (b.mirror.step op.mirror).1 = (b.step op).1.mirror := by
  cases op with
  | request c =>
    simp only [step, request, Op.mirror, accepts_mirror]
    split_ifs <;> rfl
  | tryRequest c =>
    simp only [step, tryRequest, Op.mirror, accepts_mirror]
    split_ifs <;> rfl
  | takeGrant t => rfl
  | release c =>
    have holdest : b.mirror.oldestHolder? c.mirror = b.oldestHolder? c := oldestHolder?_mirror b c
    cases ho : b.oldestHolder? c with
    | none =>
      simp only [step, release, Op.mirror, holdest, ho]
      rfl
    | some t =>
      have hwoken := dispatch_mirror h (.vacate hs (mem_holders_of_oldest ho))
      simp only [step, release, Op.mirror, holdest, ho]
      exact congrArg Answer.released hwoken
  | releaseTicket t =>
    cases ho : b.cellOf? t with
    | none =>
      simp only [step, releaseTicket, Op.mirror, cellOf?_mirror, ho]
      rfl
    | some c =>
      have hwoken := dispatch_mirror h (.vacate hs (mem_holders_of_cellOf ho))
      simp only [step, releaseTicket, Op.mirror, cellOf?_mirror, ho]
      exact congrArg Answer.released hwoken
  | withdraw t =>
    cases ho : b.queueOf? t with
    | none =>
      simp only [step, withdraw, Op.mirror, queueOf?_mirror h.tickets, ho]
      rfl
    | some c =>
      have hwoken := dispatch_mirror h (.leave hs (mem_waiting_of_queueOf ho))
      simp only [step, withdraw, Op.mirror, queueOf?_mirror h.tickets, ho]
      exact congrArg (fun ts => Answer.withdraw (.removed ts)) hwoken

/-- **An operation is symmetric**: the mirrored bus answers the same and becomes the mirror image of
what the bus becomes. -/
theorem step_mirror (h : b.Sound) (hs : b.Settled) (op : Op) :
    b.mirror.step op.mirror = ((b.step op).1.mirror, (b.step op).2.mirror) :=
  Prod.ext (step_mirror_fst h hs op) (step_mirror_snd h hs op)

theorem run_mirror (h : b.Sound) (hs : b.Settled) (ops : List Op) :
    b.mirror.run (ops.map Op.mirror) =
      ((b.run ops).1.map Answer.mirror, (b.run ops).2.mirror) := by
  induction ops generalizing b with
  | nil => rfl
  | cons op ops ih =>
    have hrest := ih (h.step hs op) (hs.step h op)
    simp only [List.map_cons, run, step_mirror h hs, hrest]

theorem stages_mirror (h : b.Sound) (hs : b.Settled) (ops : List Op) :
    b.mirror.stages (ops.map Op.mirror) = (b.stages ops).map mirror := by
  induction ops generalizing b with
  | nil => rfl
  | cons op ops ih =>
    have hrest := ih (h.step hs op) (hs.step h op)
    simp only [List.map_cons, stages, step_mirror_snd h hs, hrest]

theorem cycle?_mirror (b : Bus) (m : Move) :
    Moment.cycle? ⟨b.mirror, m.mirror⟩ = (Moment.cycle? ⟨b, m⟩).map Cycle.mirror := by
  have hactive : b.mirror.active = b.active := rfl
  simp only [Moment.cycle?, hactive]
  split_ifs
  · cases m <;> rfl
  · rfl

theorem begun_mirror (b : Bus) (ms : List Move) :
    b.mirror.begun (ms.map Move.mirror) = (b.begun ms).map Cycle.mirror := by
  induction ms generalizing b with
  | nil => rfl
  | cons m ms ih =>
    rw [List.map_cons, begun_cons, begun_cons, perform_mirror, ih, cycle?_mirror, List.map_append]
    cases Moment.cycle? ⟨b, m⟩ <;> rfl

theorem cycles_mirror (h : b.Sound) (hs : b.Settled) (ops : List Op) :
    b.mirror.cycles (ops.map Op.mirror) = (b.cycles ops).map Cycle.mirror := by
  induction ops generalizing b with
  | nil => rfl
  | cons op ops ih =>
    rw [List.map_cons, cycles_cons, cycles_cons, moves_mirror h hs, begun_mirror,
      step_mirror_snd h hs, ih (h.step hs op) (hs.step h op), List.map_append]

/-- **Neither direction is favoured.**  A run in which every operation is made for the opposite
direction gives the same answers, but for the direction named in a refused release.  The bus is at
every stage the mirror image of what it is in the original run, the same cycles begin in the
opposite directions for the same reasons, and at every stage the choice of a direction would be the
opposite one for the same reason. -/
theorem mirrored_run {config : Config} (hc : config.valid = true) (ops : List Op) :
    let b := Bus.new config
    b.run (ops.map Op.mirror) = ((b.run ops).1.map Answer.mirror, (b.run ops).2.mirror) ∧
      b.stages (ops.map Op.mirror) = (b.stages ops).map mirror ∧
      b.cycles (ops.map Op.mirror) = (b.cycles ops).map Cycle.mirror ∧
      ∀ s ∈ b.stages ops,
        s.mirror.nextTurn = s.nextTurn.map fun turn => (turn.1.opposite, turn.2) := by
  intro b
  have h : b.Sound := sound_new hc
  have hs : b.Settled := settled_new config
  have hself : b.mirror = b := rfl
  refine ⟨?_, ?_, ?_, fun s hmem => ?_⟩
  · exact hself ▸ run_mirror h hs ops
  · exact hself ▸ stages_mirror h hs ops
  · exact hself ▸ cycles_mirror h hs ops
  · exact nextTurn_mirror (h.stages hs ops s hmem).tickets

/-- A bus on which a tie goes to the oldest waiter, which is an inbound one, and a release is
refused; and the same for the opposite directions. -/
theorem mirrored_run_one_slot :
    (⟨1, .oldestFirst, 1, false⟩ : Config).valid = true ∧
      let b := Bus.new ⟨1, .oldestFirst, 1, false⟩
      let ops : List Op := [.request ⟨.outbound, .normal⟩, .request ⟨.inbound, .normal⟩,
        .request ⟨.outbound, .normal⟩, .release ⟨.inbound, .elevated⟩,
        .release ⟨.outbound, .normal⟩, .withdraw 2]
      (b.run (ops.map Op.mirror)).1 = [.request (.admitted 0), .request (.queued 1),
          .request (.queued 2), .refused (.unmatchedRelease ⟨.outbound, .elevated⟩),
          .released [1], .withdraw (.removed [])] ∧
        b.cycles (ops.map Op.mirror) =
          [⟨.inbound, none⟩, ⟨.outbound, some .oldestFirst⟩] ∧
        (b.run (ops.map Op.mirror)).2.holders = [(1, ⟨.outbound, .normal⟩)] := by
  have hvalid : (⟨1, .oldestFirst, 1, false⟩ : Config).valid = true := by decide
  obtain ⟨hrun, -, hcycles, -⟩ := mirrored_run hvalid [.request ⟨.outbound, .normal⟩,
    .request ⟨.inbound, .normal⟩, .request ⟨.outbound, .normal⟩, .release ⟨.inbound, .elevated⟩,
    .release ⟨.outbound, .normal⟩, .withdraw 2]
  refine ⟨hvalid, ?_, ?_, ?_⟩
  · rw [hrun]
    decide
  · rw [hcycles]
    decide
  · rw [hrun]
    decide

end Bus

end HalfDuplex

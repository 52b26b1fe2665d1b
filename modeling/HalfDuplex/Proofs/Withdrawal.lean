import HalfDuplex.Proofs.Life
import HalfDuplex.Proofs.Succession

/-!
# Who follows a waiter that gives up

A ticket that gives up waiting leaves its queue, and then the bus lets in whoever may go, as after a
release.  Mostly that is nobody.  No slot was given back, so only a waiter beside a free slot could
go; such waiters there are only where the bus yields, and it goes on yielding as long as anybody is
left on the other side.

* `Bus.HoldsBack` : this ticket alone keeps the waiters of the running direction out of free slots.
* `Bus.line_unqueued` : a line that a ticket has left keeps its order.
* `Bus.Settled.unqueued` : unless the ticket held others back, the bus is settled without it.
* `Bus.GivesUp` : what a withdrawal does.
* `Bus.withdrawal` : every withdrawal on the buses of a run does that, or nothing.
-/

namespace HalfDuplex

namespace Bus

/-- Ticket `t` alone keeps the waiters of the running direction `d` out of free slots. -/
structure HoldsBack (b : Bus) (t : Ticket) (d : Direction) : Prop where
  running : b.current = some d
  /-- It is the only waiter of the other direction. -/
  only : b.line d.opposite = [t]
  room : b.active < b.config.capacity
  waiters : b.line d ≠ []

/-- Ticket `t` of cell `c` gives up waiting on bus `b`, the tickets `woken` are let in, and the bus
becomes `b'`. -/
structure GivesUp (b : Bus) (t : Ticket) (c : Cell) (woken : List Ticket) (b' : Bus) : Prop where
  /-- The bus runs on as it did. -/
  current : b'.current = b.current
  /-- Exactly the ticket leaves its queue. -/
  own : b'.waiting.get c = (b.waiting.get c).erase t
  /-- Exactly the woken tickets leave the other queues. -/
  others : ∀ c', c' ≠ c → b'.waiting.get c' = (b.waiting.get c').filter (· ∉ woken)
  woken_ne_nil : woken ≠ [] ↔ ∃ d, b.HoldsBack t d
  /-- Who was held back fills the free slots, in the order of the line. -/
  woken_eq : ∀ d, b.HoldsBack t d → b.config.yieldToOpposite = true ∧
    woken = (b.line d).take (min (b.config.capacity - b.active) (b.line d).length) ∧
      (b.unqueued t c).Served d (b.config.capacity - b.active) b'
  /-- Where nobody was held back, nothing else happens. -/
  nobody : woken = [] → b' = b.unqueued t c

variable {b b' : Bus} {t : Ticket} {c : Cell} {d : Direction}

/-! ### A line that a ticket has left -/

theorem mem_line : t ∈ b.line d ↔ ∃ p, t ∈ b.waiting.get ⟨d, p⟩ := by
  rw [line, List.mem_append]
  constructor
  · rintro (h | h)
    · exact ⟨.elevated, h⟩
    · exact ⟨.normal, h⟩
  · rintro ⟨p, h⟩
    cases p with
    | elevated => exact Or.inl h
    | normal => exact Or.inr h

theorem TicketsFit.not_mem_line (h : b.TicketsFit) (ht : t ∈ b.waiting.get c)
    (hd : c.direction ≠ d) : t ∉ b.line d := by
  rw [mem_line]
  rintro ⟨p, hp⟩
  exact hd (congrArg Cell.direction (h.one_queue ht hp))

theorem waiting_unqueued (h : b.TicketsFit) (ht : t ∈ b.waiting.get c) (c' : Cell) :
    (b.unqueued t c).waiting.get c' = (b.waiting.get c').erase t := by
  have hset : (b.unqueued t c).waiting.get c' =
      if c' = c then (b.waiting.get c).erase t else b.waiting.get c' := PerCell.get_set ..
  rw [hset]
  split_ifs with hc
  · rw [hc]
  · rw [List.erase_of_not_mem fun ht' => hc (h.one_queue ht' ht)]

theorem line_unqueued (h : b.TicketsFit) (ht : t ∈ b.waiting.get c) (d : Direction) :
    (b.unqueued t c).line d = (b.line d).erase t := by
  rw [line, waiting_unqueued h ht, waiting_unqueued h ht, line, List.erase_append]
  split_ifs with hmem
  -- no ticket is in both queues of a line
  · have hnot : t ∉ b.waiting.get ⟨d, .normal⟩ := fun hn => by cases h.one_queue hmem hn
    rw [List.erase_of_not_mem hnot]
  · rw [List.erase_of_not_mem hmem]

theorem line_unqueued_eq_nil (h : b.TicketsFit) (ht : t ∈ b.waiting.get c) (hd : b.line d ≠ []) :
    (b.unqueued t c).line d = [] ↔ b.line d = [t] := by
  rw [line_unqueued h ht, List.erase_eq_nil_iff]
  exact or_iff_right hd

/-! ### Whom a withdrawal lets in -/

/-- Unless the ticket held others back, the bus is settled without it. -/
theorem Settled.unqueued (hs : b.Settled) (h : b.TicketsFit) (ht : t ∈ b.waiting.get c)
    (hnone : ∀ d, ¬ b.HoldsBack t d) : (b.unqueued t c).Settled where
  idle h0 c' := by rw [waiting_unqueued h ht, hs.idle h0, List.erase_nil]
  busy d hd hroom hw := by
    have hwaiters : b.line d ≠ [] := by
      rw [← line_ne_nil, line_unqueued h ht] at hw
      exact fun hnil => hw (by rw [hnil, List.erase_nil])
    have hy : b.yields d = true := hs.busy d hd hroom (line_ne_nil.1 hwaiters)
    rw [yields_eq_true, ← line_ne_nil] at hy ⊢
    -- if nobody else waited on the other side, the ticket would have held back the waiters
    refine ⟨hy.1, fun hnil => hnone d ⟨hd, ?_, hroom, hwaiters⟩⟩
    exact (line_unqueued_eq_nil h ht hy.2).1 hnil

/-- Without the ticket that held back the waiters of the running direction, the bus serves them. -/
theorem HoldsBack.dispatch (hb : b.HoldsBack t d) (h : b.TicketsFit) (ht : t ∈ b.waiting.get c) :
    (b.unqueued t c).dispatch =
      serve d none (b.config.capacity - b.active) (b.unqueued t c) := by
  have hnobody : (b.unqueued t c).line d.opposite = [] := by
    rw [line_unqueued h ht, hb.only, List.erase_cons_head]
  have hy : (b.unqueued t c).yields d = false := by
    rw [yields, line_eq_nil.1 hnobody, Bool.and_false]
  have hc : (b.unqueued t c).current = some d := hb.running
  simp only [Bus.dispatch, hc, hy, Bool.false_eq_true, ↓reduceIte]
  rfl

theorem HoldsBack.direction_eq (hb : b.HoldsBack t d) (h : b.TicketsFit)
    (ht : t ∈ b.waiting.get c) : c.direction = d.opposite := by
  by_contra hne
  refine h.not_mem_line ht hne ?_
  rw [hb.only]
  exact List.mem_cons_self

/-- A settled bus that keeps waiters out of free slots yields. -/
theorem HoldsBack.yields (hb : b.HoldsBack t d) (hs : b.Settled) :
    b.config.yieldToOpposite = true :=
  (yields_eq_true.1 (hs.busy d hb.running hb.room (line_ne_nil.1 hb.waiters))).1

theorem filter_notMem_take {l : List Ticket} (hl : l.Nodup) (n : Nat) :
    l.filter (· ∉ l.take n) = l.drop n := by
  have hserved : (l.take n).filter (· ∉ l.take n) = [] :=
    List.filter_eq_nil_iff.2 fun u hu => by simpa using hu
  have hleft : (l.drop n).filter (· ∉ l.take n) = l.drop n :=
    List.filter_eq_self.2 fun u hu => decide_eq_true fun hu' =>
      List.disjoint_take_drop hl (Nat.le_refl n) hu' hu
  have happend := List.filter_append (p := (· ∉ l.take n)) (l.take n) (l.drop n)
  rwa [List.take_append_drop, hserved, hleft, List.nil_append] at happend

theorem Served.waiting_eq_filter {n : Nat} (hserved : b.Served d n b') (h : b.TicketsFit)
    (c : Cell) : b'.waiting.get c = (b.waiting.get c).filter (· ∉ (b.line d).take n) := by
  obtain ⟨d', p⟩ := c
  by_cases hd : d' = d
  · subst hd
    have htake : (b.line d').take n = (b.waiting.get ⟨d', .elevated⟩).take n ++
        (b.waiting.get ⟨d', .normal⟩).take (n - (b.waiting.get ⟨d', .elevated⟩).length) :=
      List.take_append ..
    rw [htake]
    cases p with
    | elevated =>
      rw [hserved.elevated, ← filter_notMem_take (h.queue_nodup _)]
      refine List.filter_congr fun u hu => decide_eq_decide.2 (not_congr ?_)
      have hnot : u ∉ b.waiting.get ⟨d', .normal⟩ := fun hn => nomatch h.one_queue hu hn
      rw [List.mem_append, or_iff_left fun hn => hnot (List.mem_of_mem_take hn)]
    | normal =>
      rw [hserved.normal, ← filter_notMem_take (h.queue_nodup _)]
      refine List.filter_congr fun u hu => decide_eq_decide.2 (not_congr ?_)
      have hnot : u ∉ b.waiting.get ⟨d', .elevated⟩ := fun he => nomatch h.one_queue hu he
      rw [List.mem_append, or_iff_right fun he => hnot (List.mem_of_mem_take he)]
  · rw [Direction.eq_opposite_of_ne hd, hserved.opposite, eq_comm, List.filter_eq_self]
    intro u hu
    rw [decide_eq_true_eq]
    exact fun hline => h.not_mem_line hu (Direction.opposite_ne d) (List.mem_of_mem_take hline)

/-! ### Withdrawals -/

theorem withdraw_of_waiting (h : b.TicketsFit) (ht : t ∈ b.waiting.get c) :
    b.withdraw t = (.removed (b.unqueued t c).dispatch.1, (b.unqueued t c).dispatch.2) := by
  simp only [withdraw, h.queueOf?_eq_some_iff.2 ht]

/-- Who is let in when a ticket that held others back is gone. -/
theorem HoldsBack.givesUp (hb : b.HoldsBack t d) (h : b.Sound) (hs : b.Settled)
    (ht : t ∈ b.waiting.get c) :
    b.GivesUp t c (b.unqueued t c).dispatch.1 (b.unqueued t c).dispatch.2 := by
  have hfit := h.tickets
  have hdirection := hb.direction_eq hfit ht
  have hfit' : (b.unqueued t c).TicketsFit := (h.perform (.leave hs ht)).tickets
  have hline : (b.unqueued t c).line d = b.line d := by
    have hnot : t ∉ b.line d := hfit.not_mem_line ht (hdirection ▸ Direction.opposite_ne d)
    rw [line_unqueued hfit ht, List.erase_of_not_mem hnot]
  have hpos : 0 < b.config.capacity - b.active := Nat.sub_pos_of_lt hb.room
  have hsome : (b.line d).take (b.config.capacity - b.active) ≠ [] := by
    rw [Ne, List.take_eq_nil_iff, not_or]
    exact ⟨Nat.ne_of_gt hpos, hb.waiters⟩
  obtain ⟨hwoken, hserved⟩ :=
    served_serve d none (b.config.capacity - b.active) (b.unqueued t c)
  have hfilter := hserved.waiting_eq_filter hfit'
  rw [hb.dispatch hfit ht, hwoken, hline]
  rw [hline] at hfilter
  constructor
  case current =>
    rw [hserved.current, hline, if_neg hsome, hb.running]
  case own =>
    obtain ⟨d', p⟩ := c
    obtain rfl : d' = d.opposite := hdirection
    rw [hserved.opposite, waiting_unqueued hfit ht]
  case others =>
    intro c' hne
    rw [hfilter, waiting_unqueued hfit ht,
      List.erase_of_not_mem fun ht' => hne (hfit.one_queue ht' ht)]
  case woken_ne_nil => exact ⟨fun _ => ⟨d, hb⟩, fun _ => hsome⟩
  case woken_eq =>
    intro d' hb'
    obtain rfl : d' = d := Option.some.inj (hb'.running.symm.trans hb.running)
    refine ⟨hb.yields hs, ?_, hserved⟩
    rw [← List.take_take, List.take_length]
  case nobody => exact fun hnil => absurd hnil hsome

/-- What a withdrawal does on a sound and settled bus. -/
theorem givesUp_withdraw (h : b.Sound) (hs : b.Settled) (ht : t ∈ b.waiting.get c) :
    b.GivesUp t c (b.unqueued t c).dispatch.1 (b.unqueued t c).dispatch.2 := by
  by_cases hheld : ∃ d, b.HoldsBack t d
  · obtain ⟨d, hb⟩ := hheld
    exact hb.givesUp h hs ht
  · have hnone : ∀ d, ¬ b.HoldsBack t d := not_exists.1 hheld
    have hsound : (b.unqueued t c).Sound := h.perform (.leave hs ht)
    rw [(hs.unqueued h.tickets ht hnone).dispatch_nobody hsound]
    constructor
    case current => rfl
    case own => exact waiting_unqueued h.tickets ht c
    case others =>
      intro c' hne
      have hnot : t ∉ b.waiting.get c' := fun ht' => hne (h.tickets.one_queue ht' ht)
      rw [waiting_unqueued h.tickets ht, List.erase_of_not_mem hnot, eq_comm, List.filter_eq_self]
      exact fun u _ => decide_eq_true List.not_mem_nil
    case woken_ne_nil => exact ⟨fun hne => absurd rfl hne, fun hd => absurd hd hheld⟩
    case woken_eq => exact fun d hb => absurd hb (hnone d)
    case nobody => exact fun _ => rfl

/-- **Who follows a waiter that gives up.**  On every bus of a run, a waiting ticket that withdraws
leaves its queue and the running direction stays.  Others are let in exactly if the ticket was the
only one that waited for the other direction, while callers of the running direction waited beside
free slots; that happens only where the bus yields.  Then the free slots go to the front of the
running direction's line.  A ticket that does not wait changes nothing. -/
theorem withdrawal (h : b.Reachable) (t : Ticket) :
    (∀ c, t ∈ b.waiting.get c →
        ∃ woken b', b.withdraw t = (.removed woken, b') ∧ b.GivesUp t c woken b') ∧
      ((∀ c, t ∉ b.waiting.get c) → (b.withdraw t).2 = b) := by
  constructor
  · intro c ht
    exact ⟨_, _, withdraw_of_waiting h.sound.tickets ht, givesUp_withdraw h.sound h.settled ht⟩
  · intro hnone
    simp only [withdraw, queueOf?_eq_none_iff.2 hnone]

/-- A yielding bus with one of three slots held and four callers of its direction behind one of the
other: when that one gives up, the elevated caller and the oldest normal one are let in. -/
theorem withdrawal_three_slots : ∃ b b' : Bus, b.Reachable ∧ b.active = 1 ∧
    b.config = ⟨3, .alternate, 1, true⟩ ∧ 1 ∈ b.waiting.get ⟨.inbound, .normal⟩ ∧
    b.line .outbound = [5, 2, 3, 4] ∧ b.withdraw 1 = (.removed [5, 2], b') ∧
    b.GivesUp 1 ⟨.inbound, .normal⟩ [5, 2] b' ∧
    b'.waiting.get ⟨.outbound, .normal⟩ = [3, 4] ∧ (b.withdraw 6).2 = b := by
  have hreach : Reachable ((Bus.new ⟨3, .alternate, 1, true⟩).run [.request ⟨.outbound, .normal⟩,
    .request ⟨.inbound, .normal⟩, .request ⟨.outbound, .normal⟩, .request ⟨.outbound, .normal⟩,
    .request ⟨.outbound, .normal⟩, .request ⟨.outbound, .elevated⟩]).2 := ⟨by decide, _, rfl⟩
  obtain ⟨woken, b', hwithdraw, hgives⟩ :=
    (withdrawal hreach 1).1 ⟨.inbound, .normal⟩ (by decide)
  cases hwithdraw
  refine ⟨_, _, hreach, rfl, rfl, by decide, rfl, rfl, hgives, rfl, ?_⟩
  refine (withdrawal hreach 6).2 fun c => ?_
  obtain ⟨d, p⟩ := c
  cases d <;> cases p <;> decide

end Bus

end HalfDuplex

import HalfDuplex.Proofs.Consistent
import HalfDuplex.Proofs.FreeSlot

/-!
# Who follows a slot that is given back

A release lets waiters in one after the other, and after each of them the queues and the running
direction are looked at again.  What comes of it can be said at once.  As long as the bus runs on, a
release frees one slot, and at most one waiter follows.  The release of the last slot hands the
whole bus to the front of a line.

* `Bus.line` : the waiters of a direction, in the order in which they are served.
* `Bus.Served` : the first so many of a line went from their queues to slots.
* `Bus.served_serve` : serving a direction serves as many of its line as there is room.
* `Bus.succession` : who follows a slot that is given back, and what is left.

That at most one waiter follows rests on the bus being settled: had it several free slots and
waiters for them, they would all be let in by the next release.
-/

namespace HalfDuplex

namespace Bus

/-- The waiters of direction `d` in the order in which they are served. -/
def line (b : Bus) (d : Direction) : List Ticket :=
  b.waiting.get ⟨d, .elevated⟩ ++ b.waiting.get ⟨d, .normal⟩

/-- The waiters of direction `d` with their cells, in the order in which they are served. -/
def lineUp (b : Bus) (d : Direction) : List (Ticket × Cell) :=
  (b.waiting.get ⟨d, .elevated⟩).map (·, ⟨d, .elevated⟩) ++
    (b.waiting.get ⟨d, .normal⟩).map (·, ⟨d, .normal⟩)

/-- On the way from `b` to `b'` the first `n` waiters of direction `d`, or all of them if they are
fewer, went from their queues to slots. -/
structure Served (b : Bus) (d : Direction) (n : Nat) (b' : Bus) : Prop where
  elevated : b'.waiting.get ⟨d, .elevated⟩ = (b.waiting.get ⟨d, .elevated⟩).drop n
  normal : b'.waiting.get ⟨d, .normal⟩ =
    (b.waiting.get ⟨d, .normal⟩).drop (n - (b.waiting.get ⟨d, .elevated⟩).length)
  /-- Nothing happens to the queues of the other direction. -/
  opposite : ∀ p, b'.waiting.get ⟨d.opposite, p⟩ = b.waiting.get ⟨d.opposite, p⟩
  holders : b'.holders = ((b.lineUp d).take n).reverse ++ b.holders
  granted : b'.granted = ((b.line d).take n).reverse ++ b.granted
  active : b'.active = b.active + ((b.line d).take n).length
  current : b'.current = if (b.line d).take n = [] then b.current else some d

/-- Ticket `t` gives back its slot of cell `c` on bus `b`, the tickets `woken` follow it, and the
bus becomes `b'`. -/
inductive Follows (b : Bus) (t : Ticket) (c : Cell) : List Ticket → Bus → Prop where
  /-- The bus was full.  The front of the running direction takes the free slot. -/
  | next {u : Ticket} {rest : List Ticket} {b' : Bus} : 1 < b.active →
      b.active = b.config.capacity → b.line c.direction = u :: rest →
      ¬ (b.config.yieldToOpposite = true ∧ b.line c.direction.opposite ≠ []) →
      (b.vacated t c).Served c.direction 1 b' → Follows b t c [u] b'
  /-- The bus was not full, or nobody waits for the running direction, or the bus yields. -/
  | nobody : 1 < b.active →
      b.active ≠ b.config.capacity ∨ b.line c.direction = [] ∨
        b.config.yieldToOpposite = true ∧ b.line c.direction.opposite ≠ [] →
      Follows b t c [] (b.vacated t c)
  /-- The emptied bus is handed to a direction. -/
  | turn {d : Direction} {why : Reason} {b' : Bus} : b.active = 1 →
      (b.vacated t c).nextTurn = some (d, why) → b.line d ≠ [] →
      (b.vacated t c).Served d b.config.capacity b' → b'.current = some d →
      Follows b t c ((b.line d).take b.config.capacity) b'
  /-- Nobody waits. -/
  | idle : b.active = 1 → (∀ d, b.line d = []) → (b.vacated t c).isIdle = true →
      Follows b t c [] (b.vacated t c)

variable {b b' : Bus} {d : Direction} {n : Nat} {t : Ticket} {c : Cell} {op : Op}
  {woken : List Ticket}

/-! ### Lines -/

theorem map_fst_lineUp (b : Bus) (d : Direction) : (b.lineUp d).map Prod.fst = b.line d := by
  simp only [lineUp, line, List.map_append, List.map_map]
  congr 1
  · exact List.map_id _
  · exact List.map_id _

theorem line_eq_nil : b.line d = [] ↔ b.hasWaiters d = false := by
  rw [line, List.append_eq_nil_iff, hasWaiters_eq_false]
  constructor
  · rintro ⟨helevated, hnormal⟩ p
    cases p with
    | elevated => exact helevated
    | normal => exact hnormal
  · intro h
    exact ⟨h .elevated, h .normal⟩

theorem line_ne_nil : b.line d ≠ [] ↔ b.hasWaiters d = true := by
  rw [Ne, line_eq_nil, Bool.not_eq_false]

theorem Front.lineUp_eq (h : b.Front t c) :
    b.lineUp c.direction = (t, c) :: (b.lineUp c.direction).tail := by
  obtain ⟨d, p⟩ := c
  cases p with
  | elevated =>
    rw [lineUp, h.head]
    rfl
  | normal =>
    have hnone : b.waiting.get ⟨d, .elevated⟩ = [] := h.elevated_first rfl
    rw [lineUp, hnone, h.head]
    rfl

/-! ### Serving a line -/

namespace Served

theorem lineUp_eq (h : b.Served d n b') : b'.lineUp d = (b.lineUp d).drop n := by
  rw [lineUp, lineUp, h.elevated, h.normal, List.drop_append, List.map_drop, List.map_drop,
    List.length_map]

theorem line_eq (h : b.Served d n b') : b'.line d = (b.line d).drop n := by
  rw [← map_fst_lineUp, h.lineUp_eq, List.map_drop, map_fst_lineUp]

theorem of_no_waiters (h : b.hasWaiters d = false) (n : Nat) : b.Served d n b := by
  have hnil := hasWaiters_eq_false.1 h
  have hline : b.line d = [] := line_eq_nil.2 h
  have hlineUp : b.lineUp d = [] := by
    rw [lineUp, hnil, hnil]
    rfl
  constructor
  case elevated => rw [hnil, List.drop_nil]
  case normal => rw [hnil, List.drop_nil]
  case opposite => exact fun _ => rfl
  case holders => rw [hlineUp, List.take_nil]; rfl
  case granted => rw [hline, List.take_nil]; rfl
  case active => rw [hline, List.take_nil]; rfl
  case current => rw [hline, List.take_nil, if_pos rfl]

theorem zero (b : Bus) (d : Direction) : b.Served d 0 b :=
  ⟨rfl, by rw [Nat.zero_sub, List.drop_zero], fun _ => rfl, rfl, rfl, rfl, rfl⟩

theorem board (hf : b.Front t c) (why : Option Reason) :
    b.Served c.direction 1 (b.perform (.board t c why)) := by
  have hlineUp := hf.lineUp_eq
  have hline : b.line c.direction = t :: (b.lineUp c.direction).tail.map Prod.fst := by
    rw [← map_fst_lineUp, hlineUp]
    rfl
  have hwaiting : ∀ c', (b.perform (.board t c why)).waiting.get c' =
      if c' = c then (b.waiting.get c).tail else b.waiting.get c' := by
    intro c'
    rw [waiting_perform, PerCell.get_set]
  constructor
  case elevated =>
    rw [hwaiting]
    split_ifs with hc
    · rw [← hc, List.drop_one]
    -- the next waiter is a normal one only where no elevated one waits
    · have hnormal : c.priority = .normal := by
        by_contra hp
        obtain ⟨d, p⟩ := c
        cases p <;> contradiction
      rw [hf.elevated_first hnormal, List.drop_nil]
  case normal =>
    rw [hwaiting]
    split_ifs with hc
    · have hnone : b.waiting.get ⟨c.direction, .elevated⟩ = [] := hf.elevated_first (by rw [← hc])
      rw [← hc] at hnone ⊢
      rw [hnone, List.length_nil, Nat.sub_zero, List.drop_one]
    · have hhead := hf.head
      obtain ⟨d, p⟩ := c
      cases p with
      | elevated =>
        rw [hhead, List.length_cons, Nat.sub_eq_zero_of_le (Nat.le_add_left 1 _), List.drop_zero]
      | normal => exact absurd rfl hc
  case opposite =>
    intro p
    exact waiting_board_of_ne (Direction.opposite_ne _)
  case holders =>
    rw [holders_perform, hlineUp]
    rfl
  case granted =>
    rw [granted_perform, hline]
    rfl
  case active =>
    rw [active_perform, hline]
    rfl
  case current =>
    rw [current_perform, hline]
    rfl

theorem trans {m : Nat} {b'' : Bus} (h : b.Served d m b') (h' : b'.Served d n b'') :
    b.Served d (m + n) b'' := by
  constructor
  case elevated => rw [h'.elevated, h.elevated, List.drop_drop]
  case normal =>
    rw [h'.normal, h.normal, h.elevated, List.drop_drop, List.length_drop]
    congr 1
    omega
  case opposite =>
    intro p
    rw [h'.opposite, h.opposite]
  case holders =>
    rw [h'.holders, h.holders, h.lineUp_eq, List.take_add, List.reverse_append, List.append_assoc]
  case granted =>
    rw [h'.granted, h.granted, h.line_eq, List.take_add, List.reverse_append, List.append_assoc]
  case active =>
    rw [h'.active, h.active, h.line_eq, List.take_add, List.length_append, Nat.add_assoc]
  case current =>
    rw [h'.current, h.current, h.line_eq]
    by_cases hrest : ((b.line d).drop m).take n = []
    · simp only [List.take_add, hrest, List.append_nil, ↓reduceIte]
    · simp only [List.take_add, hrest, List.append_eq_nil_iff, and_false, ↓reduceIte]

end Served

/-- Serving a direction serves as many of its line as there is room. -/
theorem served_serve (d : Direction) (why : Option Reason) (room : Nat) (b : Bus) :
    (serve d why room b).1 = (b.line d).take room ∧ b.Served d room (serve d why room b).2 := by
  induction room generalizing b with
  | zero => exact ⟨rfl, .zero b d⟩
  | succ room ih =>
    cases hp : b.popWaiter? d with
    | none =>
      have hnone := popWaiter?_eq_none hp
      rw [line_eq_nil.2 hnone]
      simp only [serve, hp]
      exact ⟨rfl, .of_no_waiters hnone _⟩
    | some next =>
      obtain ⟨t, c, b'⟩ := next
      obtain ⟨rfl, hf, rfl⟩ := popWaiter?_eq_some hp
      have hboard := Served.board hf why
      obtain ⟨hwoken, hserved⟩ := ih (b.perform (.board t c why))
      have hline : b.line c.direction = t :: (b.line c.direction).drop 1 := by
        rw [← map_fst_lineUp, hf.lineUp_eq]
        rfl
      simp only [serve, hp]
      show t :: (serve c.direction why room (b.perform (.board t c why))).1 = _ ∧
        b.Served _ _ (serve c.direction why room (b.perform (.board t c why))).2
      refine ⟨?_, ?_⟩
      · rw [hwoken, hboard.line_eq, hline, List.take_succ_cons]
        rfl
      · rw [Nat.add_comm]
        exact hboard.trans hserved

/-! ### Slots that are given back -/

/-- A release that succeeds takes the slot from a holder and then lets in whoever may go. -/
theorem release_cases (h : (b.step op).1 = .released woken) : ∃ t c, (t, c) ∈ b.holders ∧
    (op = .releaseTicket t ∨ op = .release c ∧ b.oldestHolder? c = some t) ∧
      (b.vacated t c).dispatch = (woken, (b.step op).2) := by
  cases op with
  | release c =>
    cases ho : b.oldestHolder? c with
    | none =>
      simp only [step, release, ho] at h
      cases h
    | some t =>
      simp only [step, release, ho] at h ⊢
      cases h
      exact ⟨t, c, mem_holders_of_oldest ho, Or.inr ⟨rfl, ho⟩, rfl⟩
  | releaseTicket t =>
    cases ho : b.cellOf? t with
    | none =>
      simp only [step, releaseTicket, ho] at h
      cases h
    | some c =>
      simp only [step, releaseTicket, ho] at h ⊢
      cases h
      exact ⟨t, c, mem_holders_of_cellOf ho, Or.inl rfl, rfl⟩
  | request | tryRequest | takeGrant | withdraw => cases h

theorem serve_of_no_waiters (h : b.hasWaiters d = false) (why : Option Reason) (room : Nat) :
    serve d why room b = ([], b) := by
  cases room with
  | zero => rfl
  | succ room => rw [serve, popWaiter?_of_no_waiters h]

/-- Who follows on a bus that runs on. -/
theorem follows_running (h : b.Sound) (hs : b.Settled) (hmem : (t, c) ∈ b.holders)
    (hlt : 1 < b.active) :
    b.Follows t c (b.vacated t c).dispatch.1 (b.vacated t c).dispatch.2 := by
  have hcurrent : b.current = some c.direction := h.slots.current_of_holder _ hmem
  have hrunning : (b.vacated t c).current = some c.direction := by
    show (if b.active - 1 = 0 then none else b.current) = some c.direction
    rw [if_neg (by omega), hcurrent]
  -- giving back a slot leaves the queues as they are, so the bus yields as before
  have hyields : (b.vacated t c).yields c.direction = b.yields c.direction := rfl
  have hyields_iff : b.yields c.direction = true ↔
      b.config.yieldToOpposite = true ∧ b.line c.direction.opposite ≠ [] := by
    rw [yields_eq_true, line_ne_nil]
  simp only [dispatch, hrunning, hyields]
  by_cases hyield : b.yields c.direction = true
  · rw [if_pos hyield]
    exact .nobody hlt (Or.inr (Or.inr (hyields_iff.1 hyield)))
  rw [if_neg hyield]
  cases hline : b.line c.direction with
  | nil =>
    have hnone : (b.vacated t c).hasWaiters c.direction = false := line_eq_nil.1 hline
    rw [serve_of_no_waiters hnone]
    exact .nobody hlt (Or.inr (Or.inl hline))
  | cons u rest =>
    -- somebody waits and the bus does not yield, so it was full
    have hfull : b.active = b.config.capacity := by
      refine Nat.le_antisymm h.slots.active_le (Nat.not_lt.1 fun hroom => ?_)
      refine hyield (hs.busy _ hcurrent hroom (line_ne_nil.1 ?_))
      rw [hline]
      exact List.cons_ne_nil _ _
    have hroom : (b.vacated t c).config.capacity - (b.vacated t c).active = 1 := by
      show b.config.capacity - (b.active - 1) = 1
      omega
    obtain ⟨hwoken, hserved⟩ := served_serve c.direction none 1 (b.vacated t c)
    have hfront : (b.vacated t c).line c.direction = u :: rest := hline
    rw [hroom, hwoken, hfront]
    exact .next hlt hfull hline (fun hyes => hyield (hyields_iff.2 hyes)) hserved

/-- Who follows on a bus that is emptied. -/
theorem follows_emptied (h : b.Sound) (hone : b.active = 1) :
    b.Follows t c (b.vacated t c).dispatch.1 (b.vacated t c).dispatch.2 := by
  have hactive : (b.vacated t c).active = 0 := by
    show b.active - 1 = 0
    omega
  have hcurrent : (b.vacated t c).current = none := if_pos hactive
  cases hturn : (b.vacated t c).nextTurn with
  | none =>
    have hnobody : ∀ c', b.waiting.get c' = [] := nextTurn_eq_none hturn
    simp only [dispatch, hcurrent, hturn]
    refine .idle hone (fun d => ?_) ?_
    · rw [line, hnobody, hnobody]
      rfl
    · have hwaiting : (b.vacated t c).totalWaiting = 0 := totalWaiting_eq_zero.2 hnobody
      simp only [isIdle, hactive, hwaiting, decide_true, Bool.and_self]
  | some turn =>
    obtain ⟨d, why⟩ := turn
    have hline : b.line d ≠ [] := line_ne_nil.2 (hasWaiters_of_nextTurn hturn)
    simp only [dispatch, hcurrent, hturn, hactive, Nat.sub_zero]
    obtain ⟨hwoken, hserved⟩ := served_serve d (some why) b.config.capacity (b.vacated t c)
    have hfirst : ((b.vacated t c).line d).take b.config.capacity ≠ [] := by
      rw [Ne, List.take_eq_nil_iff, not_or]
      exact ⟨Nat.ne_of_gt h.slots.capacity_pos, hline⟩
    have hruns := hserved.current
    rw [if_neg hfirst] at hruns
    have hcapacity : (b.vacated t c).config.capacity = b.config.capacity := rfl
    rw [hcapacity, hwoken]
    exact .turn hone hturn hline hserved hruns

/-- **Who follows a slot that is given back.**  On every bus of a run, a release that succeeds takes
the slot from a holder of the running direction: from the ticket that is named, or from the oldest
of the cell.  If other slots are held, the front of the running direction follows, provided that the
bus was full and does not yield to waiters of the other one, and otherwise nobody.  If it was the
last slot, the emptied bus chooses a direction, and as many of its line follow as the bus has slots.
Whoever follows has left its queue and has a slot and a grant, and all others wait as before. -/
theorem succession (h : b.Reachable) (hgave : (b.step op).1 = .released woken) :
    ∃ t c, (t, c) ∈ b.holders ∧ b.current = some c.direction ∧
      (op = .releaseTicket t ∨ op = .release c ∧ b.oldestHolder? c = some t) ∧
      b.Follows t c woken (b.step op).2 := by
  obtain ⟨t, c, hmem, hop, hdispatch⟩ := release_cases hgave
  refine ⟨t, c, hmem, h.sound.slots.current_of_holder _ hmem, hop, ?_⟩
  have hpos : 0 < b.active := h.sound.slots.holders_length ▸ List.length_pos_of_mem hmem
  by_cases hone : b.active = 1
  · have hfollows := follows_emptied (t := t) (c := c) h.sound hone
    rwa [hdispatch] at hfollows
  · have hfollows := follows_running h.sound h.settled hmem (by omega)
    rwa [hdispatch] at hfollows

/-- One slot of two is held and goes: an elevated inbound ticket follows, and before the second of
two older normal ones the bus is full. -/
theorem succession_two_slots : ∃ b : Bus, b.Reachable ∧ b.config = ⟨2, .alternate, 1, false⟩ ∧
    b.active = 1 ∧ (b.step (.releaseTicket 0)).1 = .released [3, 1] ∧
    b.Follows 0 ⟨.outbound, .normal⟩ [3, 1] (b.step (.releaseTicket 0)).2 := by
  have hreach : Reachable ((Bus.new ⟨2, .alternate, 1, false⟩).run [.request ⟨.outbound, .normal⟩,
    .request ⟨.inbound, .normal⟩, .request ⟨.inbound, .normal⟩,
    .request ⟨.inbound, .elevated⟩]).2 := ⟨by decide, _, rfl⟩
  obtain ⟨t, c, hmem, -, -, hfollows⟩ := @succession _ (.releaseTicket 0) [3, 1] hreach (by decide)
  cases List.mem_singleton.1 hmem
  exact ⟨_, hreach, by decide, by decide, by decide, hfollows⟩

end Bus

end HalfDuplex

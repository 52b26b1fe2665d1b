import HalfDuplex.Proofs.OldestFirst
import HalfDuplex.Proofs.Withdrawal

/-!
# One slot in single file

A bus with one slot keeps a queue for each cell, and whenever its slot is free it chooses a
direction first and a waiter after that.  Under the oldest-first rule, and with callers of one
priority only, nothing is left of this: the callers pass in single file, whichever way they go.

* `SingleFile` : one line before one slot, with all operations of a bus.  Who withdraws is taken out
  of the line; directions do not matter.
* `SingleFile.sublist_run` : tickets pass a single file in arrival order.
* `Bus.Shows` : the queues of a bus, put together in arrival order, are the line.
* `Bus.Shows.front_first` : whichever direction the emptied bus chooses, its next waiter is the
  first in line.
* `Bus.Shows.step`, `Bus.Shows.run` : bus and single file give the same answers, step after step.
* `Bus.single_file_run` : the same for runs from the empty bus.

Neither the streak limit nor yielding comes into it.  Elevated waiters are preferred only over a
side that has none, and a bus that runs with one slot has no room for which it could yield.
-/

namespace HalfDuplex

/-- The operation asks for a slot with priority `p`, if it asks for one. -/
def Op.AsksWith (p : Priority) : Op → Prop
  | .request c => c.priority = p
  | .tryRequest c => c.priority = p
  | _ => True

/-- Callers who pass one slot in single file. -/
structure SingleFile where
  /-- The ticket that holds the slot, with its cell. -/
  holder : Option (Ticket × Cell) := none
  /-- Who waits, the first in line first. -/
  line : List (Ticket × Cell) := []
  /-- The tickets that got the slot from the line and have not picked it up. -/
  granted : List Ticket := []
  nextTicket : Ticket := 0
  deriving DecidableEq, Repr

namespace SingleFile

/-- A caller of cell `c` takes the free slot or goes to the end of the line. -/
def arrive (q : SingleFile) (c : Cell) : Request × SingleFile :=
  match q.holder with
  | none =>
    (.admitted q.nextTicket,
      { q with holder := some (q.nextTicket, c), nextTicket := q.nextTicket + 1 })
  | some _ =>
    (.queued q.nextTicket,
      { q with line := q.line ++ [(q.nextTicket, c)], nextTicket := q.nextTicket + 1 })

/-- The slot is given back, and the first in line takes it. -/
def advance (q : SingleFile) : List Ticket × SingleFile :=
  match q.line with
  | [] => ([], { q with holder := none })
  | x :: rest =>
    ([x.1], { q with holder := some x, line := rest, granted := x.1 :: q.granted })

/-- The slot is given back if its holder is the one that is meant. -/
def release (q : SingleFile) (meant : Ticket × Cell → Bool) (fault : Fault) : Answer × SingleFile :=
  if q.holder.any meant then (.released q.advance.1, q.advance.2) else (.refused fault, q)

/-- Ticket `t` is taken out of the line, if it is there. -/
def withdraw (q : SingleFile) (t : Ticket) : Withdrawal × SingleFile :=
  if t ∈ q.line.map Prod.fst then (.removed [], { q with line := q.line.filter (·.1 ≠ t) })
  else (if t ∈ q.granted then .alreadyAdmitted else .unknown, q)

/-- Performs one operation. -/
def step (q : SingleFile) : Op → Answer × SingleFile
  | .request c => (.request (q.arrive c).1, (q.arrive c).2)
  | .tryRequest c =>
    if q.holder = none then (.tryRequest (some q.nextTicket), (q.arrive c).2)
    else (.tryRequest none, q)
  | .takeGrant t => (.takeGrant (t ∈ q.granted), { q with granted := q.granted.filter (· ≠ t) })
  | .release c => q.release (·.2 = c) (.unmatchedRelease c)
  | .releaseTicket t => q.release (·.1 = t) (.staleTicket t)
  | .withdraw t => (.withdraw (q.withdraw t).1, (q.withdraw t).2)

/-- Performs the operations of a list in turn. -/
def run (q : SingleFile) : List Op → List Answer × SingleFile
  | [] => ([], q)
  | op :: ops =>
    let (answer, q) := q.step op
    let (answers, q) := q.run ops
    (answer :: answers, q)

/-- The tickets in line, the first one first. -/
def tickets (q : SingleFile) : List Ticket := q.line.map Prod.fst

/-- Nobody waits for a free slot. -/
def Settled (q : SingleFile) : Prop := q.holder = none → q.line = []

/-- What an operation can do: the tickets that it admits, and the line that it leaves. -/
inductive Passes (q : SingleFile) : List Ticket → SingleFile → Prop where
  /-- Nobody moves, but someone may be taken out of the line. -/
  | stay {q' : SingleFile} : q'.holder = q.holder → q'.line.Sublist q.line →
      q'.nextTicket = q.nextTicket → Passes q [] q'
  /-- A caller takes the free slot. -/
  | enter {c : Cell} : q.holder = none → Passes q [q.nextTicket] (q.arrive c).2
  /-- A caller goes to the end of the line. -/
  | queue {c : Cell} : q.holder ≠ none → Passes q [] (q.arrive c).2
  /-- The slot is given back. -/
  | advance : Passes q q.advance.1 q.advance.2

variable {q q' : SingleFile} {c : Cell} {done : List Ticket}

/-! ### One operation -/

theorem arrive_of_free (h : q.holder = none) : q.arrive c = (.admitted q.nextTicket,
    { q with holder := some (q.nextTicket, c), nextTicket := q.nextTicket + 1 }) := by
  simp only [arrive, h]

theorem arrive_of_taken (h : q.holder ≠ none) : q.arrive c = (.queued q.nextTicket,
    { q with line := q.line ++ [(q.nextTicket, c)], nextTicket := q.nextTicket + 1 }) := by
  obtain ⟨x, hx⟩ := Option.ne_none_iff_exists'.1 h
  simp only [arrive, hx]

theorem advance_of_nil (h : q.line = []) : q.advance = ([], { q with holder := none }) := by
  simp only [advance, h]

theorem advance_of_cons {x : Ticket × Cell} {rest : List (Ticket × Cell)} (h : q.line = x :: rest) :
    q.advance =
      ([x.1], { q with holder := some x, line := rest, granted := x.1 :: q.granted }) := by
  simp only [advance, h]

/-- Every operation does one of four things. -/
theorem passes_step (q : SingleFile) (op : Op) :
    q.Passes (q.step op).1.admitted (q.step op).2 := by
  have hrelease : ∀ meant fault,
      q.Passes (q.release meant fault).1.admitted (q.release meant fault).2 := by
    intro meant fault
    unfold release
    split_ifs
    · exact .advance
    · exact .stay rfl (List.Sublist.refl _) rfl
  cases op with
  | request c =>
    by_cases hq : q.holder = none
    · have hanswer : (q.step (.request c)).1.admitted = [q.nextTicket] := by
        rw [step, arrive_of_free hq]
        rfl
      rw [hanswer]
      exact .enter hq
    · have hanswer : (q.step (.request c)).1.admitted = [] := by
        rw [step, arrive_of_taken hq]
        rfl
      rw [hanswer]
      exact .queue hq
  | tryRequest c =>
    rw [step]
    split_ifs with hq
    · exact .enter hq
    · exact .stay rfl (List.Sublist.refl _) rfl
  | takeGrant t => exact .stay rfl (List.Sublist.refl _) rfl
  | release c => exact hrelease _ _
  | releaseTicket t => exact hrelease _ _
  | withdraw t =>
    simp only [step, withdraw]
    by_cases ht : t ∈ q.line.map Prod.fst
    · rw [if_pos ht]
      exact .stay rfl List.filter_sublist rfl
    · rw [if_neg ht]
      split_ifs
      · exact .stay rfl (List.Sublist.refl _) rfl
      · exact .stay rfl (List.Sublist.refl _) rfl

/-! ### Tickets pass in arrival order -/

theorem Passes.settled {ts : List Ticket} (h : q.Passes ts q') (hs : q.Settled) : q'.Settled := by
  intro hnone
  cases h with
  | stay hholder hline => exact List.sublist_nil.1 (hs (hholder ▸ hnone) ▸ hline)
  | enter hfree =>
    rw [arrive_of_free hfree] at hnone
    cases hnone
  | queue htaken =>
    rw [arrive_of_taken htaken] at hnone
    exact absurd hnone htaken
  | advance =>
    cases hline : q.line with
    | nil => rw [advance_of_nil hline, hline]
    | cons x rest =>
      rw [advance_of_cons hline] at hnone
      cases hnone

theorem Passes.sublist {ts : List Ticket} (h : q.Passes ts q') (hs : q.Settled)
    (hsub : (done ++ q.tickets).Sublist (List.range q.nextTicket)) :
    (done ++ ts ++ q'.tickets).Sublist (List.range q'.nextTicket) := by
  -- a newcomer has the next number
  have hlonger := hsub.append (List.Sublist.refl [q.nextTicket])
  rw [← List.range_succ, List.append_assoc] at hlonger
  cases h with
  | stay _ hline hnext =>
    rw [List.append_nil, hnext]
    exact ((hline.map Prod.fst).append_left done).trans hsub
  | enter hfree =>
    have hnobody : q.tickets = [] := by rw [tickets, hs hfree, List.map_nil]
    rw [hnobody, List.nil_append] at hlonger
    rw [arrive_of_free hfree, tickets, hs hfree, List.map_nil, List.append_nil]
    exact hlonger
  | queue htaken =>
    rw [arrive_of_taken htaken, tickets, List.map_append, List.append_nil]
    exact hlonger
  | advance =>
    cases hline : q.line with
    | nil => simpa [advance_of_nil, tickets, hline] using hsub
    | cons x rest => simpa [advance_of_cons hline, tickets, hline] using hsub

/-- **Tickets pass a single file in arrival order**, and those in line come after all who passed. -/
theorem sublist_run (hs : q.Settled) (hsub : (done ++ q.tickets).Sublist (List.range q.nextTicket))
    (ops : List Op) :
    (done ++ (q.run ops).1.flatMap Answer.admitted ++ (q.run ops).2.tickets).Sublist
      (List.range (q.run ops).2.nextTicket) := by
  induction ops generalizing q done with
  | nil => simpa only [run, List.flatMap_nil, List.append_nil] using hsub
  | cons op ops ih =>
    have hstep := q.passes_step op
    have hrest := ih (hstep.settled hs) (hstep.sublist hs hsub)
    simp only [run, List.flatMap_cons]
    rwa [List.append_assoc done] at hrest

end SingleFile

namespace Bus

/-- Bus `b` has one slot and the oldest-first rule, and its queues, put together in arrival order,
are the line of `q`, in which all callers have priority `p`. -/
structure Shows (b : Bus) (p : Priority) (q : SingleFile) : Prop where
  capacity : b.config.capacity = 1
  fairness : b.config.fairness = .oldestFirst
  holders : b.holders = q.holder.toList
  waiting : ∀ c, b.waiting.get c = (q.line.filter (·.2 = c)).map Prod.fst
  granted : b.granted = q.granted
  nextTicket : b.nextTicket = q.nextTicket
  priority : ∀ x ∈ q.line, x.2.priority = p
  sorted : q.tickets.Pairwise (· < ·)

variable {b : Bus} {p : Priority} {q : SingleFile} {t : Ticket} {c : Cell} {d : Direction} {op : Op}
  {ops : List Op}

namespace Shows

section

variable (h : b.Shows p q)

include h

theorem mem_waiting : t ∈ b.waiting.get c ↔ (t, c) ∈ q.line := by
  rw [h.waiting]
  simp only [List.mem_map, List.mem_filter, decide_eq_true_eq]
  constructor
  · rintro ⟨⟨u, c'⟩, ⟨hmem, rfl⟩, rfl⟩
    exact hmem
  · exact fun hmem => ⟨(t, c), ⟨hmem, rfl⟩, rfl⟩

theorem line_eq_nil_of_waiting (hnone : ∀ c, b.waiting.get c = []) : q.line = [] := by
  refine List.eq_nil_iff_forall_not_mem.2 fun x hx => ?_
  have hmem := h.mem_waiting.2 hx
  rw [hnone] at hmem
  cases hmem

theorem cell_eq (ht : t ∈ b.waiting.get c) {u : Ticket} {c' : Cell} (hu : u ∈ b.waiting.get c')
    (hd : c.direction = c'.direction) : c = c' := by
  have hp := h.priority _ (h.mem_waiting.1 ht)
  have hp' := h.priority _ (h.mem_waiting.1 hu)
  obtain ⟨d, p₁⟩ := c
  obtain ⟨d', p₂⟩ := c'
  obtain rfl : d = d' := hd
  obtain rfl : p₁ = p₂ := hp.trans hp'.symm
  rfl

/-! ### The choice of a direction -/

/-- With one priority, no side is preferred over another that has waiters. -/
theorem preferred?_eq_none (ht : t ∈ b.waiting.get c) {u : Ticket} {c' : Cell}
    (hu : u ∈ b.waiting.get c') (hd : c'.direction = c.direction.opposite) :
    b.preferred? = none := by
  by_contra hsome
  obtain ⟨e, he⟩ := Option.ne_none_iff_exists'.1 hsome
  obtain ⟨hwaits, hnobody⟩ := preferred?_eq_some he
  -- whoever waits is elevated, and so is everybody else
  obtain ⟨v, hv⟩ := List.exists_mem_of_ne_nil _ (hasWaitersIn_eq_true.1 hwaits)
  have hp : p = .elevated := (h.priority _ (h.mem_waiting.1 hv)).symm
  have hother : ∃ w, w ∈ b.waiting.get ⟨e.opposite, .elevated⟩ := by
    subst hp
    have hcp := h.priority _ (h.mem_waiting.1 ht)
    have hcp' := h.priority _ (h.mem_waiting.1 hu)
    obtain ⟨d, pd⟩ := c
    obtain ⟨d', pd'⟩ := c'
    obtain rfl : pd = .elevated := hcp
    obtain rfl : pd' = .elevated := hcp'
    obtain rfl : d' = d.opposite := hd
    by_cases hde : d = e
    · exact ⟨u, hde ▸ hu⟩
    · exact ⟨t, Direction.eq_opposite_of_ne hde ▸ ht⟩
  obtain ⟨w, hw⟩ := hother
  have htrue := hasWaitersIn_eq_true.2 (List.ne_nil_of_mem hw)
  rw [hnobody] at htrue
  cases htrue

/-- **Whichever direction the emptied bus chooses**, its next waiter came before all others. -/
theorem front_le (hfit : b.TicketsFit) {r : Reason} (hn : b.nextTurn = some (c.direction, r))
    (hf : b.Front t c) {u : Ticket} {c' : Cell} (hu : u ∈ b.waiting.get c') : t ≤ u := by
  have hle : ∀ v ∈ b.waiting.get c, t ≤ v := by
    intro v hv
    rw [hf.head] at hv
    rcases List.mem_cons.1 hv with rfl | hv
    · exact Nat.le_refl _
    · exact Nat.le_of_lt (hf.lt_of_mem_tail (hfit.sorted c) hv)
  by_cases hd : c'.direction = c.direction
  · rw [h.cell_eq hu hf.mem hd] at hu
    exact hle u hu
  · have hopp := Direction.eq_opposite_of_ne hd
    have hw : b.hasWaiters c.direction = true := hasWaiters_of_mem hf.mem
    have hw' : b.hasWaiters c.direction.opposite = true := hopp ▸ hasWaiters_of_mem hu
    -- the tie goes to the side of the oldest waiter, which waits in the queue of the next one
    have hside : b.oldestSide = c.direction := by
      rw [nextTurn_of_waiters hw hw', Option.some.injEq] at hn
      have hfst := congrArg Prod.fst hn
      simpa only [contested, h.preferred?_eq_none hf.mem hu hopp, h.fairness] using hfst
    obtain ⟨v, hv, hlt⟩ := oldestSide_eq hfit hw hw' hside
    obtain ⟨p', hp'⟩ := mem_waiters.1 (oldestWaiter?_eq_some hfit.sorted hv).1
    have hvc : v ∈ b.waiting.get c := by rwa [← h.cell_eq hp' hf.mem rfl]
    have hvu : v < u := hlt u (mem_waiters.2 ⟨c'.priority, by rw [← hopp]; exact hu⟩)
    exact Nat.le_trans (hle v hvc) (Nat.le_of_lt hvu)

theorem front_first (hfit : b.TicketsFit) {r : Reason} (hn : b.nextTurn = some (c.direction, r))
    (hf : b.Front t c) : ∃ rest, q.line = (t, c) :: rest := by
  have hmem := h.mem_waiting.1 hf.mem
  have hsorted := h.sorted
  unfold SingleFile.tickets at hsorted
  cases hline : q.line with
  | nil =>
    rw [hline] at hmem
    cases hmem
  | cons x rest =>
    rw [hline] at hmem hsorted
    rcases List.mem_cons.1 hmem with rfl | hmem
    · exact ⟨rest, rfl⟩
    · have hx : x ∈ q.line := hline ▸ List.mem_cons_self
      have hle : t ≤ x.1 := h.front_le hfit hn hf (h.mem_waiting.2 hx)
      have hlt : x.1 < t := (List.pairwise_cons.1 hsorted).1 t (List.mem_map_of_mem hmem)
      exact absurd hle (Nat.not_le.2 hlt)

/-! ### The slot -/

theorem active_eq (hslots : b.SlotsFit) : b.active = q.holder.toList.length := by
  rw [← hslots.holders_length, h.holders]

theorem accepts_iff (hslots : b.SlotsFit) : b.accepts c = true ↔ q.holder = none := by
  have hactive := h.active_eq hslots
  rw [accepts_eq_true, h.capacity]
  cases hq : q.holder with
  | none => simp [hactive, hq]
  | some x =>
    rw [hq] at hactive
    have hone : b.active = 1 := hactive
    simp [hone]

end

theorem countRejected (h : b.Shows p q) : b.countRejected.Shows p q :=
  ⟨h.capacity, h.fairness, h.holders, h.waiting, h.granted, h.nextTicket, h.priority, h.sorted⟩

theorem dispatch (h : b.Shows p q) (hsound : b.Sound) (hfree : q.holder = none) :
    b.dispatch.1 = q.advance.1 ∧ b.dispatch.2.Shows p q.advance.2 := by
  have h0 : b.active = 0 := by rw [h.active_eq hsound.slots, hfree]; rfl
  have hcurrent : b.current = none := hsound.slots.current_eq_none.2 h0
  rw [dispatch_eq]
  cases hn : b.nextTurn with
  | none =>
    have hnil : q.line = [] := h.line_eq_nil_of_waiting (nextTurn_eq_none hn)
    rw [SingleFile.advance_of_nil hnil, ← hfree]
    simp only [dispatchMoves, hcurrent, hn]
    exact ⟨rfl, h⟩
  | some turn =>
    obtain ⟨d, r⟩ := turn
    obtain ⟨t, c, rfl, hf, hserve⟩ := serveMoves_of_waiters (hasWaiters_of_nextTurn hn) (some r) 0
    have hmoves : b.dispatchMoves = [.board t c (some r)] := by
      simp only [dispatchMoves, hcurrent, hn, h.capacity, h0]
      exact hserve
    obtain ⟨rest, hline⟩ := h.front_first hsound.tickets hn hf
    have hsorted := h.sorted
    have hpriority := h.priority
    rw [SingleFile.tickets, hline] at hsorted
    rw [hline] at hpriority
    rw [hmoves, SingleFile.advance_of_cons hline]
    refine ⟨rfl, ?_⟩
    simp only [performAll_cons, performAll_nil]
    constructor
    case capacity => rw [config_perform, h.capacity]
    case fairness => rw [config_perform, h.fairness]
    case holders =>
      rw [holders_perform, h.holders, hfree]
      rfl
    case waiting =>
      intro c'
      rw [waiting_perform]
      simp only [PerCell.get_set, h.waiting, hline]
      by_cases hc : c' = c
      · subst hc
        simp
      · simp [hc, Ne.symm hc]
    case granted => rw [granted_perform, h.granted]
    case nextTicket => rw [nextTicket_perform, h.nextTicket]
    case priority => exact fun x hx => hpriority x (List.mem_cons_of_mem _ hx)
    case sorted => exact (List.pairwise_cons.1 hsorted).2

/-! ### One operation -/

section

variable (h : b.Shows p q) (hsound : b.Sound)

include h hsound

theorem arrive_free (hfree : q.holder = none) :
    (b.request c).1 = (q.arrive c).1 ∧ (b.request c).2.Shows p (q.arrive c).2 := by
  have hrequest : b.request c = (.admitted b.nextTicket, b.perform (.arrive b.nextTicket c)) := by
    simp only [request, (h.accepts_iff hsound.slots).2 hfree]
    rfl
  rw [hrequest, SingleFile.arrive_of_free hfree, h.nextTicket]
  refine ⟨rfl, ?_⟩
  constructor
  case capacity => rw [config_perform, h.capacity]
  case fairness => rw [config_perform, h.fairness]
  case holders =>
    rw [holders_perform, h.holders, hfree]
    rfl
  case waiting => exact fun c' => by rw [waiting_perform, h.waiting]
  case granted => rw [granted_perform, h.granted]
  case nextTicket => rw [nextTicket_perform, h.nextTicket]
  case priority => exact h.priority
  case sorted => exact h.sorted

theorem arrive_taken (hp : c.priority = p) (htaken : q.holder ≠ none) :
    (b.request c).1 = (q.arrive c).1 ∧ (b.request c).2.Shows p (q.arrive c).2 := by
  have hacc : b.accepts c = false :=
    Bool.eq_false_iff.2 fun hacc => htaken ((h.accepts_iff hsound.slots).1 hacc)
  have hrequest : b.request c = (.queued b.nextTicket, b.perform (.enqueue b.nextTicket c)) := by
    simp only [request, hacc]
    rfl
  rw [hrequest, SingleFile.arrive_of_taken htaken, h.nextTicket]
  refine ⟨rfl, ?_⟩
  constructor
  case capacity => rw [config_perform, h.capacity]
  case fairness => rw [config_perform, h.fairness]
  case holders => rw [holders_perform, h.holders]
  case waiting =>
    intro c'
    rw [waiting_perform]
    by_cases hc : c' = c
    · subst hc
      simp [h.waiting]
    · simp [h.waiting, hc, Ne.symm hc]
  case granted => rw [granted_perform, h.granted]
  case nextTicket => rw [nextTicket_perform, h.nextTicket]
  case priority =>
    intro x hx
    rcases List.mem_append.1 hx with hx | hx
    · exact h.priority x hx
    · rw [List.mem_singleton.1 hx, hp]
  case sorted =>
    have hnew : ∀ u ∈ q.tickets, u < q.nextTicket := by
      intro u hu
      obtain ⟨x, hx, rfl⟩ := List.mem_map.1 hu
      rw [← h.nextTicket]
      exact hsound.tickets.waiting_lt (h.mem_waiting.2 hx)
    rw [SingleFile.tickets, List.map_append]
    refine List.pairwise_append.2 ⟨h.sorted, List.pairwise_singleton _ _, ?_⟩
    intro u hu v hv
    rw [List.map_singleton, List.mem_singleton] at hv
    exact hv ▸ hnew u hu

theorem vacated (hs : b.Settled) (hholder : q.holder = some (t, c)) :
    (b.vacated t c).dispatch.1 = q.advance.1 ∧ (b.vacated t c).dispatch.2.Shows p q.advance.2 := by
  have hholders : b.holders = [(t, c)] := by rw [h.holders, hholder]; rfl
  have hmem : (t, c) ∈ b.holders := hholders ▸ List.mem_cons_self
  have hfreed : (b.vacated t c).Shows p { q with holder := none } := by
    refine ⟨h.capacity, h.fairness, ?_, h.waiting, h.granted, h.nextTicket, h.priority, h.sorted⟩
    show b.holders.filter (fun x => x.1 ≠ t) = []
    simp [hholders]
  -- the first in line does not depend on who held the slot before
  exact hfreed.dispatch (hsound.perform (.vacate hs hmem)) rfl

theorem release_eq (hs : b.Settled) :
    (b.step (.release c)).1 = (q.step (.release c)).1 ∧
      (b.step (.release c)).2.Shows p (q.step (.release c)).2 := by
  simp only [Bus.step, SingleFile.step, SingleFile.release]
  by_cases hmeant : q.holder.any (·.2 = c) = true
  · obtain ⟨⟨t, c'⟩, hholder, hc⟩ := (Option.any_eq_true _ _).1 hmeant
    obtain rfl : c' = c := of_decide_eq_true hc
    have holdest : b.oldestHolder? c' = some t :=
      oldestHolder?_eq_some_iff.2 (by simp [h.holders, hholder])
    obtain ⟨hwoken, hshows⟩ := h.vacated hsound hs hholder
    simp only [Bus.release, holdest, hmeant, ↓reduceIte]
    exact ⟨congrArg Answer.released hwoken, hshows⟩
  · have hnone : ∀ u, (u, c) ∉ b.holders := by
      simpa [h.holders, Option.any_eq_true] using hmeant
    simp only [Bus.release, oldestHolder?_eq_none_iff.2 hnone, hmeant]
    exact ⟨rfl, h.countRejected⟩

theorem releaseTicket_eq (hs : b.Settled) :
    (b.step (.releaseTicket t)).1 = (q.step (.releaseTicket t)).1 ∧
      (b.step (.releaseTicket t)).2.Shows p (q.step (.releaseTicket t)).2 := by
  simp only [Bus.step, SingleFile.step, SingleFile.release]
  by_cases hmeant : q.holder.any (·.1 = t) = true
  · obtain ⟨⟨t', c⟩, hholder, ht⟩ := (Option.any_eq_true _ _).1 hmeant
    obtain rfl : t' = t := of_decide_eq_true ht
    have hcell : b.cellOf? t' = some c :=
      hsound.tickets.cellOf?_eq_some_iff.2 (by simp [h.holders, hholder])
    obtain ⟨hwoken, hshows⟩ := h.vacated hsound hs hholder
    simp only [Bus.releaseTicket, hcell, hmeant, ↓reduceIte]
    exact ⟨congrArg Answer.released hwoken, hshows⟩
  · have hnone : ∀ c, (t, c) ∉ b.holders := by
      simpa [h.holders, Option.any_eq_true] using hmeant
    simp only [Bus.releaseTicket, cellOf?_eq_none_iff.2 hnone, hmeant]
    exact ⟨rfl, h.countRejected⟩

/-- Who withdraws is taken out of the line, and nobody else moves. -/
theorem withdraw_eq (hs : b.Settled) :
    (b.withdraw t).1 = (q.withdraw t).1 ∧ (b.withdraw t).2.Shows p (q.withdraw t).2 := by
  by_cases ht : t ∈ q.line.map Prod.fst
  · rw [SingleFile.withdraw, if_pos ht]
    obtain ⟨⟨u, c⟩, hmem, rfl⟩ := List.mem_map.1 ht
    have hwaits : u ∈ b.waiting.get c := h.mem_waiting.2 hmem
    have hfit := hsound.tickets
    -- somebody waits, so the slot is taken and the ticket holds nobody back
    have hfull : ¬ b.active < b.config.capacity := by
      rw [h.capacity, Nat.lt_one_iff]
      intro h0
      rw [hs.idle h0] at hwaits
      cases hwaits
    have hsettled := hs.unqueued hfit hwaits fun d hb => hfull hb.room
    have hleft : (b.unqueued u c).Sound := hsound.perform (.leave hs hwaits)
    rw [withdraw_of_waiting hfit hwaits, hsettled.dispatch_nobody hleft]
    refine ⟨rfl, ?_⟩
    constructor
    case capacity => exact h.capacity
    case fairness => exact h.fairness
    case holders => exact h.holders
    case waiting =>
      intro c'
      rw [waiting_unqueued hfit hwaits, (hfit.queue_nodup c').erase_eq_filter, h.waiting,
        List.filter_map, List.filter_filter, List.filter_filter]
      congr 1
      refine List.filter_congr fun x _ => Bool.eq_iff_iff.2 ?_
      simp [and_comm]
    case granted => exact h.granted
    case nextTicket => exact h.nextTicket
    case priority => exact fun x hx => h.priority x (List.mem_of_mem_filter hx)
    case sorted => exact h.sorted.sublist (List.filter_sublist.map _)
  · have hnone : ∀ c, t ∉ b.waiting.get c := fun c hw =>
      ht (List.mem_map_of_mem (h.mem_waiting.1 hw))
    simp only [Bus.withdraw, SingleFile.withdraw, queueOf?_eq_none_iff.2 hnone, ht, h.granted]
    exact ⟨rfl, h⟩

/-- **Bus and single file give the same answer**, and the bus shows the single file afterwards. -/
theorem step (hs : b.Settled) (hp : op.AsksWith p) :
    (b.step op).1 = (q.step op).1 ∧ (b.step op).2.Shows p (q.step op).2 := by
  cases op with
  | request c =>
    by_cases hfree : q.holder = none
    · exact (h.arrive_free hsound hfree).imp_left (congrArg Answer.request)
    · exact (h.arrive_taken hsound hp hfree).imp_left (congrArg Answer.request)
  | tryRequest c =>
    have hacc := h.accepts_iff hsound.slots (c := c)
    rw [SingleFile.step]
    split_ifs with hfree
    · obtain ⟨-, hshows⟩ := h.arrive_free hsound hfree (c := c)
      have hsame : (b.request c).2 = (b.tryRequest c).2 := by
        simp only [request, tryRequest, hacc.2 hfree, ↓reduceIte]
      rw [hsame] at hshows
      refine ⟨?_, hshows⟩
      simp only [Bus.step, tryRequest, hacc.2 hfree, ↓reduceIte, h.nextTicket]
    · have hrefused : b.accepts c = false := Bool.eq_false_iff.2 fun hyes => hfree (hacc.1 hyes)
      simp only [Bus.step, tryRequest, hrefused, Bool.false_eq_true, ↓reduceIte]
      exact ⟨trivial, h⟩
  | takeGrant t =>
    simp only [Bus.step, SingleFile.step, takeGrant, h.granted]
    exact ⟨trivial, ⟨h.capacity, h.fairness, h.holders, h.waiting, rfl, h.nextTicket, h.priority,
      h.sorted⟩⟩
  | release c => exact h.release_eq hsound hs
  | releaseTicket t => exact h.releaseTicket_eq hsound hs
  | withdraw t => exact (h.withdraw_eq hsound hs).imp_left (congrArg Answer.withdraw)

/-- Bus and single file give the same answers in every run. -/
theorem run (hs : b.Settled) (hp : ∀ op ∈ ops, op.AsksWith p) :
    (b.run ops).1 = (q.run ops).1 ∧ (b.run ops).2.Shows p (q.run ops).2 := by
  induction ops generalizing b q with
  | nil => exact ⟨rfl, h⟩
  | cons op ops ih =>
    rw [List.forall_mem_cons] at hp
    obtain ⟨hanswer, hshows⟩ := h.step hsound hs hp.1
    obtain ⟨hanswers, hend⟩ := ih hshows (hsound.step hs op) (hs.step hsound op) hp.2
    simp only [Bus.run, SingleFile.run]
    exact ⟨by rw [hanswer, hanswers], hend⟩

end

end Shows

theorem shows_new {config : Config} (hcap : config.capacity = 1)
    (hfair : config.fairness = .oldestFirst) (p : Priority) : (Bus.new config).Shows p {} where
  capacity := hcap
  fairness := hfair
  holders := rfl
  waiting c := PerCell.get_replicate [] c
  granted := rfl
  nextTicket := rfl
  priority _ hx := nomatch hx
  sorted := List.Pairwise.nil

/-- **One slot in single file.**  On a bus with one slot and the oldest-first rule, whatever its
streak limit and whether or not it yields, let all requests of a run ask with the same priority, for
either direction.  Then the run admits its tickets in arrival order.  Every operation is answered as
by one line before one slot from which those who withdraw are taken out, and who waits on the bus in
the end is who stands in that line. -/
theorem single_file_run {config : Config} (hcap : config.capacity = 1)
    (hfair : config.fairness = .oldestFirst) {p : Priority} {ops : List Op}
    (hp : ∀ op ∈ ops, op.AsksWith p) :
    let b := (Bus.new config).run ops
    let q := SingleFile.run {} ops
    (((Bus.new config).admissions ops).map Prod.fst).Pairwise (· < ·) ∧
      b.1 = q.1 ∧ b.2.holders = q.2.holder.toList ∧
      ∀ c, b.2.waiting.get c = (q.2.line.filter (·.2 = c)).map Prod.fst := by
  intro b q
  have hvalid : config.valid = true := by simp [Config.valid, hcap]
  obtain ⟨hanswers, hshows⟩ :=
    (shows_new hcap hfair p).run (sound_new hvalid) (settled_new config) hp
  refine ⟨?_, hanswers, hshows.holders, hshows.waiting⟩
  have hempty : ([] ++ ({} : SingleFile).tickets).Sublist
      (List.range ({} : SingleFile).nextTicket) := List.Sublist.refl _
  have hsub := SingleFile.sublist_run (fun _ => rfl) hempty ops
  rw [admissions, List.map_filterMap, ← admitted_run, hanswers]
  exact List.pairwise_lt_range.sublist ((List.sublist_append_left _ _).trans hsub)

/-- Callers of both directions take turns with one slot, and the third withdraws. -/
theorem single_file_run_withdrawn :
    let config : Config := ⟨1, .oldestFirst, 0, true⟩
    let ops : List Op := [.request ⟨.outbound, .normal⟩, .request ⟨.inbound, .normal⟩,
      .request ⟨.inbound, .normal⟩, .request ⟨.outbound, .normal⟩, .request ⟨.inbound, .normal⟩,
      .withdraw 2, .releaseTicket 0, .takeGrant 1, .tryRequest ⟨.inbound, .normal⟩,
      .release ⟨.inbound, .normal⟩]
    config.capacity = 1 ∧ config.fairness = .oldestFirst ∧ (∀ op ∈ ops, op.AsksWith .normal) ∧
      ((Bus.new config).admissions ops).map Prod.fst = [0, 1, 3] ∧
      (((Bus.new config).admissions ops).map Prod.fst).Pairwise (· < ·) ∧
      ((Bus.new config).run ops).1 = (SingleFile.run {} ops).1 ∧
      ((Bus.new config).run ops).2.waiting.get ⟨.inbound, .normal⟩ = [4] := by
  intro config ops
  have hcap : config.capacity = 1 := rfl
  have hfair : config.fairness = .oldestFirst := rfl
  have hp : ∀ op ∈ ops, op.AsksWith .normal := by
    simp [ops, Op.AsksWith]
  obtain ⟨hsorted, hanswers, -, hwaiting⟩ := single_file_run hcap hfair hp
  exact ⟨hcap, hfair, hp, by decide, hsorted, hanswers, (hwaiting _).trans (by decide)⟩

end Bus

end HalfDuplex

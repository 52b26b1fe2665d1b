import HalfDuplex.Gate
import HalfDuplex.Proofs.Balance

/-!
# Who sleeps at the gate

A caller sleeps at the gate while its ticket waits, and on until it has seen its grant.  The gate
keeps its own list of those who sleep, beside the queues and grants of the bus.  A ticket on the
list only would sleep for ever, one in the queues only could not be called.

* `Bus.pending` : the tickets that wait or have a grant to pick up.
* `Gate.attend` : one operation on the bus and what the gate does about it.
* `Gate.Tidy` : the sleepers are those with a pending ticket, and those with a grant were called.
* `Gate.Tidy.attend` : every operation keeps the gate tidy.
* `Gate.Tidy.arrive`, `Gate.Tidy.resume` and the like : each stretch at a tidy gate attends to one
  operation, or to two.
-/

namespace HalfDuplex

/-- The ticket whose caller need not sleep any longer after an operation, as the answer tells. -/
def Op.dismissed? (op : Op) (answer : Answer) : Option Ticket :=
  (op.withdrawn? answer).or (op.collected? answer)

namespace Bus

/-- The tickets that wait, and those with a grant to pick up. -/
def pending (b : Bus) : List Ticket := b.queue.map Prod.fst ++ b.granted

variable {b : Bus} {op : Op} {t : Ticket} {c : Cell} {x : Ticket × Cell}

theorem mem_pending : t ∈ b.pending ↔ (∃ c, t ∈ b.waiting.get c) ∨ t ∈ b.granted := by
  rw [pending, List.mem_append, mem_queue_tickets]

theorem pending_nodup (h : b.Reachable) : b.pending.Nodup := by
  refine List.nodup_append'.2 ⟨h.sound.tickets.queue_tickets_nodup, h.booked.granted_nodup, ?_⟩
  intro t hwaits hgrant
  obtain ⟨c, hc⟩ := mem_queue_tickets.1 hwaits
  exact h.sound.tickets.not_granted hc hgrant

theorem withdrawn_or_collected (op : Op) (answer : Answer) :
    op.withdrawn? answer = none ∨ op.collected? answer = none := by
  cases op with
  | takeGrant => exact Or.inl rfl
  | withdraw => exact Or.inr rfl
  | request | tryRequest | release | releaseTicket => exact Or.inl rfl

theorem dismissed_toList (op : Op) (answer : Answer) : (op.dismissed? answer).toList =
    (op.withdrawn? answer).toList ++ (op.collected? answer).toList := by
  unfold Op.dismissed?
  rcases withdrawn_or_collected op answer with h | h
  · simp [h]
  · simp [h]

/-- Being woken makes no difference to who is pending: tickets come by queueing and go when their
callers are dismissed. -/
theorem pending_step (h : b.Reachable) (op : Op) :
    (b.pending ++ (op.joined? (b.step op).1).toList.map Prod.fst).Perm
      ((op.dismissed? (b.step op).1).toList ++ (b.step op).2.pending) := by
  have hqueue := queue_step h op
  have hgrants := granted_step h op
  rw [List.perm_iff_count] at hqueue hgrants ⊢
  intro t
  have h1 := hqueue t
  have h2 := hgrants t
  simp only [pending, dismissed_toList, List.count_append] at h1 h2 ⊢
  omega

theorem dismissed_of_joined {answer : Answer} (h : op.joined? answer = some (t, c)) :
    op.dismissed? answer = none := by
  cases op with
  | request => rfl
  | tryRequest | takeGrant | release | releaseTicket | withdraw => cases h

theorem joined_of_dismissed {answer : Answer} (h : op.dismissed? answer = some t) :
    op.joined? answer = none := by
  refine Option.eq_none_iff_forall_ne_some.2 fun ⟨u, c⟩ hj => ?_
  rw [dismissed_of_joined hj] at h
  cases h

theorem dismissed_of_withdrawn {answer : Answer} (h : op.withdrawn? answer = some t) :
    op.dismissed? answer = some t := by
  rw [Op.dismissed?, h]
  rfl

theorem pending_dismissed (h : b.Reachable) (ht : op.dismissed? (b.step op).1 = some t) :
    b.pending.Perm (t :: (b.step op).2.pending) := by
  have hlaw := pending_step h op
  rwa [joined_of_dismissed ht, ht, Option.toList_none, List.map_nil, List.append_nil] at hlaw

theorem pending_still (h : b.Reachable) (op : Op) (hj : op.joined? (b.step op).1 = none)
    (hd : op.dismissed? (b.step op).1 = none) : b.pending.Perm (b.step op).2.pending := by
  have hlaw := pending_step h op
  rwa [hj, hd, Option.toList_none, Option.toList_none, List.map_nil, List.append_nil,
    List.nil_append] at hlaw

theorem pending_of_dismissed (h : b.Reachable) (ht : op.dismissed? (b.step op).1 = some t) :
    t ∈ b.pending ∧ t ∉ (b.step op).2.pending := by
  have hlaw := pending_dismissed h ht
  have hnodup := hlaw.nodup_iff.1 (pending_nodup h)
  exact ⟨hlaw.mem_iff.2 List.mem_cons_self, (List.nodup_cons.1 hnodup).1⟩

theorem waited_of_departed (h : b.Reachable)
    (ht : t ∈ (b.step op).1.woken ∨ op.withdrawn? (b.step op).1 = some t) :
    ∃ c, t ∈ b.waiting.get c := by
  have hj : op.joined? (b.step op).1 = none := by
    rcases ht with hwoken | hgone
    · exact joined_eq_none hwoken
    · exact joined_of_dismissed (dismissed_of_withdrawn hgone)
  have hlaw := queue_step h op
  rw [hj, Option.toList_none, List.map_nil, List.append_nil] at hlaw
  refine mem_queue_tickets.1 (hlaw.symm.subset (List.mem_append_left _ ?_))
  rw [List.mem_append, Option.mem_toList]
  exact ht

theorem collected_of_woken {answer : Answer} (h : t ∈ answer.woken) :
    op.collected? answer = none := by
  cases answer with
  | released | withdraw => cases op <;> rfl
  | request | tryRequest | takeGrant | refused => cases h

theorem granted_of_woken (h : b.Reachable) (ht : t ∈ (b.step op).1.woken) :
    t ∈ (b.step op).2.granted := by
  have hlaw := granted_step h op
  rw [collected_of_woken ht] at hlaw
  exact hlaw.subset (List.mem_append_right _ ht)

theorem waiting_or_departed (h : b.Reachable) (op : Op)
    (ht : (t, c) ∈ b.queue ++ (op.joined? (b.step op).1).toList) :
    t ∈ (b.step op).2.waiting.get c ∨ t ∈ (b.step op).1.woken ∨
      op.withdrawn? (b.step op).1 = some t := by
  rcases List.mem_append.1 ((waiters_step h op).subset ht) with hdep | hstays
  · have hfst := (departed_perm _).subset (List.mem_map_of_mem (f := Prod.fst) hdep)
    rw [← woken_step, ← (tells_step b op).withdrawn] at hfst
    exact Or.inr ((List.mem_append.1 hfst).imp_right Option.mem_toList.1)
  · exact Or.inl (mem_queue.1 hstays)

/-- A pending ticket stays so, in its cell, until its caller is dismissed. -/
theorem pending_or_dismissed (h : b.Reachable) (ht : t ∈ b.waiting.get c ∨ t ∈ b.granted)
    (hd : op.dismissed? (b.step op).1 ≠ some t) :
    t ∈ (b.step op).2.waiting.get c ∨ t ∈ (b.step op).2.granted := by
  have htold : ∀ u, u ∈ (op.withdrawn? (b.step op).1).toList ++
      (op.collected? (b.step op).1).toList → u ≠ t := by
    rintro u hu rfl
    rw [← dismissed_toList, Option.mem_toList] at hu
    exact hd hu
  rcases ht with hw | hg
  · rcases waiting_or_departed h op (List.mem_append_left _ (mem_queue.2 hw)) with
      hw | hwoken | hgone
    · exact Or.inl hw
    · exact Or.inr (granted_of_woken h hwoken)
    · exact absurd rfl (htold t (List.mem_append_left _ (Option.mem_toList.2 hgone)))
  · have hlaw := granted_step h op
    rcases List.mem_append.1 (hlaw.subset (List.mem_append_left _ hg)) with hgone | hg
    · exact absurd rfl (htold t (List.mem_append_right _ hgone))
    · exact Or.inr hg

theorem waiting_of_joined (h : b.Reachable) (hj : op.joined? (b.step op).1 = some (t, c)) :
    t ∉ b.pending ∧ t ∈ (b.step op).2.waiting.get c := by
  have hd := dismissed_of_joined hj
  constructor
  · have hlaw := pending_step h op
    rw [hj, hd] at hlaw
    have hnodup := hlaw.nodup_iff.2 (pending_nodup (h.step op))
    exact fun ht => (List.nodup_append'.1 hnodup).2.2 ht List.mem_cons_self
  · have hqueue : (t, c) ∈ b.queue ++ (op.joined? (b.step op).1).toList := by
      rw [hj]
      exact List.mem_append_right _ List.mem_cons_self
    rcases waiting_or_departed h op hqueue with hw | hwoken | hgone
    · exact hw
    · rw [joined_eq_none hwoken] at hj
      cases hj
    · rw [dismissed_of_withdrawn hgone] at hd
      cases hd

theorem pending_or_joined (h : b.Reachable) (ht : t ∈ (b.step op).2.pending) :
    t ∈ b.pending ∨ ∃ c, op.joined? (b.step op).1 = some (t, c) := by
  have hlaw := pending_step h op
  refine (List.mem_append.1 (hlaw.symm.subset (List.mem_append_right _ ht))).imp_right ?_
  intro hnew
  obtain ⟨⟨u, c⟩, hu, rfl⟩ := List.mem_map.1 hnew
  exact ⟨c, Option.mem_toList.1 hu⟩

theorem arrived_eq_next (ha : op.arrived? (b.step op).1 = some (t, c)) : t = b.nextTicket := by
  cases op with
  | request =>
    simp only [step, request] at ha
    split_ifs at ha
    · cases ha
      rfl
    · cases ha
  | tryRequest =>
    simp only [step, tryRequest] at ha
    split_ifs at ha
    · cases ha
      rfl
    · cases ha
  | takeGrant | release | releaseTicket | withdraw => cases ha

theorem told_of_arrived {answer : Answer} (ha : op.arrived? answer = some (t, c)) :
    op.joined? answer = none ∧ op.dismissed? answer = none := by
  cases op with
  | request =>
    cases answer with
    | request r =>
      cases r with
      | admitted => exact ⟨rfl, rfl⟩
      | queued => cases ha
    | tryRequest | takeGrant | released | refused | withdraw => cases ha
  | tryRequest => exact ⟨rfl, rfl⟩
  | takeGrant | release | releaseTicket | withdraw => cases ha

theorem not_pending_of_arrived (h : b.Reachable)
    (ha : op.arrived? (b.step op).1 = some (t, c)) : t ∉ (b.step op).2.pending := by
  intro ht
  rcases pending_or_joined h ht with hold | ⟨c', hj⟩
  -- the ticket is new
  · have hlt : t < b.nextTicket := by
      rcases mem_pending.1 hold with ⟨c', hw⟩ | hg
      · exact h.sound.tickets.waiting_lt hw
      · exact h.sound.tickets.granted_lt hg
    rw [arrived_eq_next ha] at hlt
    exact Nat.lt_irrefl _ hlt
  · rw [(told_of_arrived ha).1] at hj
    cases hj

theorem held_or_new (h : b.Reachable) (hx : x ∈ (b.step op).2.holders) :
    x ∈ b.holders ∨ op.arrived? (b.step op).1 = some x ∨ x.1 ∈ (b.step op).1.woken := by
  rcases List.mem_append.1 ((holders_step h op).symm.subset (List.mem_append_right _ hx)) with
    hheld | hadmitted
  · exact Or.inl hheld
  · obtain ⟨m, hm, hmx⟩ := List.mem_filterMap.1 hadmitted
    cases m with
    | arrive =>
      refine Or.inr (Or.inl (Option.mem_toList.1 ?_))
      rw [(tells_step b op).arrived]
      exact List.mem_filterMap.2 ⟨_, hm, hmx⟩
    | board =>
      cases hmx
      rw [woken_step]
      exact Or.inr (Or.inr (List.mem_filterMap.2 ⟨_, hm, rfl⟩))
    | enqueue | collect | vacate | leave | refuse => cases hmx

theorem not_holding_of_withdrawn (h : b.Reachable)
    (hw : op.withdrawn? (b.step op).1 = some t) : t ∉ (b.step op).2.holders.map Prod.fst := by
  obtain rfl := eq_withdraw_of_withdrawn hw
  intro hmem
  obtain ⟨x, hx, rfl⟩ := List.mem_map.1 hmem
  rcases held_or_new h hx with hheld | harrived | hwoken
  · obtain ⟨c, hc⟩ := waited_of_departed h (Or.inr hw)
    exact h.sound.tickets.not_holding hc (List.mem_map_of_mem hheld)
  · cases harrived
  · have hgone := (pending_of_dismissed h (dismissed_of_withdrawn hw)).2
    exact hgone (List.mem_append_right _ (granted_of_woken h hwoken))

end Bus

namespace Gate

/-- One operation on the bus and what the gate does about it: who joins a queue goes to sleep, who
is dismissed gets up, and who is woken is called. -/
def attend (g : Gate) (op : Op) : Gate :=
  let answer := (g.bus.step op).1
  let parked := ((op.joined? answer).toList.map Prod.fst ++ g.parked).filter
    (· ∉ op.dismissed? answer)
  { g with
    bus := (g.bus.step op).2
    parked := parked
    called := g.called.filter (· ∉ op.dismissed? answer) ++ answer.woken.filter (· ∈ parked) }

/-- The sleepers at the gate are those with a pending ticket, and those with a grant were called. -/
structure Tidy (g : Gate) : Prop where
  sane : g.poisoned = false
  reachable : g.bus.Reachable
  parked : g.parked.Perm g.bus.pending
  called : g.called.Perm g.bus.granted

variable {g : Gate} {op : Op} {t : Ticket} {c : Cell}

theorem count_filter_notMem (l : List Ticket) (o : Option Ticket) (t : Ticket) :
    (l.filter (· ∉ o)).count t = if t ∈ o then 0 else l.count t := by
  split_ifs with ht
  · exact List.count_eq_zero.2 fun hmem => of_decide_eq_true (List.mem_filter.1 hmem).2 ht
  · exact List.count_filter (decide_eq_true ht)

namespace Tidy

theorem mem_parked (h : g.Tidy) :
    t ∈ g.parked ↔ (∃ c, t ∈ g.bus.waiting.get c) ∨ t ∈ g.bus.granted := by
  rw [h.parked.mem_iff, Bus.mem_pending]

theorem mem_called (h : g.Tidy) : t ∈ g.called ↔ t ∈ g.bus.granted := h.called.mem_iff

/-- After an operation the sleepers are again those with a pending ticket. -/
theorem parked_attend (h : g.Tidy) (op : Op) :
    (g.attend op).parked.Perm (g.attend op).bus.pending := by
  rw [List.perm_iff_count]
  intro t
  have hlaw := (Bus.pending_step h.reachable op).count_eq t
  have hparked := h.parked.count_eq t
  simp only [attend, count_filter_notMem]
  split_ifs with ht
  · exact (List.count_eq_zero.2 (Bus.pending_of_dismissed h.reachable ht).2).symm
  · have hnone : (op.dismissed? (g.bus.step op).1).toList.count t = 0 :=
      List.count_eq_zero.2 fun hmem => ht (Option.mem_toList.1 hmem)
    rw [List.count_append] at hlaw ⊢
    rw [List.count_append] at hlaw
    omega

theorem parked_of_woken (h : g.Tidy) (ht : t ∈ (g.bus.step op).1.woken) :
    t ∈ (g.attend op).parked := by
  rw [(h.parked_attend op).mem_iff, Bus.mem_pending]
  exact Or.inr (Bus.granted_of_woken h.reachable ht)

/-- After an operation those with a grant have been called. -/
theorem called_attend (h : g.Tidy) (op : Op) :
    (g.attend op).called.Perm (g.attend op).bus.granted := by
  have hall : (g.bus.step op).1.woken.filter (· ∈ (g.attend op).parked) =
      (g.bus.step op).1.woken :=
    List.filter_eq_self.2 fun t ht => decide_eq_true (h.parked_of_woken ht)
  have hcalled : (g.attend op).called =
      g.called.filter (· ∉ op.dismissed? (g.bus.step op).1) ++ (g.bus.step op).1.woken := by
    rw [← hall]
    rfl
  rw [List.perm_iff_count]
  intro t
  have hlaw := (Bus.granted_step h.reachable op).count_eq t
  have hcount := h.called.count_eq t
  rw [hcalled, List.count_append, count_filter_notMem]
  rw [List.count_append, List.count_append] at hlaw
  have hbus : (g.attend op).bus = (g.bus.step op).2 := rfl
  rw [hbus]
  split_ifs with ht
  -- who is dismissed has no grant any more, and was not woken
  · have hgone : t ∉ (g.bus.step op).2.granted := fun hgrant =>
      (Bus.pending_of_dismissed h.reachable ht).2 (List.mem_append_right _ hgrant)
    have hasleep : t ∉ (g.bus.step op).1.woken := fun hwoken =>
      hgone (Bus.granted_of_woken h.reachable hwoken)
    rw [List.count_eq_zero.2 hgone, List.count_eq_zero.2 hasleep]
  · have hnone : (op.collected? (g.bus.step op).1).toList.count t = 0 := by
      refine List.count_eq_zero.2 fun hmem => ht (Option.mem_toList.1 ?_)
      rw [Bus.dismissed_toList]
      exact List.mem_append_right _ hmem
    omega

/-- **Every operation keeps the gate tidy.** -/
theorem attend (h : g.Tidy) (op : Op) : (g.attend op).Tidy :=
  ⟨h.sane, h.reachable.step op, h.parked_attend op, h.called_attend op⟩

end Tidy

/-! ### The stretches at a gate -/

@[simp] theorem call_nil (g : Gate) : g.call [] = g := by
  simp [call]

theorem woken_of_joined {answer : Answer} {x : Ticket × Cell} (h : op.joined? answer = some x) :
    answer.woken = [] := by
  refine List.eq_nil_iff_forall_not_mem.2 fun t ht => ?_
  rw [Bus.joined_eq_none ht] at h
  cases h

theorem attend_of_joined (hj : op.joined? (g.bus.step op).1 = some (t, c)) :
    g.attend op = (g.withBus (g.bus.step op).2).park t := by
  have hd := Bus.dismissed_of_joined hj
  simp [attend, hj, hd, woken_of_joined hj, park, withBus]

/-- Who is dismissed is taken off the list before the others are called. -/
theorem attend_of_dismissed (hd : op.dismissed? (g.bus.step op).1 = some t) :
    g.attend op = ((g.withBus (g.bus.step op).2).unpark t).call (g.bus.step op).1.woken := by
  have hj := Bus.joined_of_dismissed hd
  have hne : ∀ l : List Ticket, l.filter (· ∉ some t) = l.filter (· ≠ t) := by
    refine fun l => List.filter_congr fun u _ => ?_
    simp [eq_comm]
  simp only [attend, hj, hd, hne, Option.toList_none, List.map_nil, List.nil_append]
  rfl

theorem attend_of_neither (hj : op.joined? (g.bus.step op).1 = none)
    (hd : op.dismissed? (g.bus.step op).1 = none) :
    g.attend op = (g.withBus (g.bus.step op).2).call (g.bus.step op).1.woken := by
  have hall : ∀ l : List Ticket, l.filter (· ∉ none) = l :=
    fun l => List.filter_eq_self.2 fun u _ => decide_eq_true (Option.not_mem_none u)
  simp only [attend, hj, hd, hall, Option.toList_none, List.map_nil, List.nil_append]
  rfl

theorem attend_collect (ht : t ∈ g.bus.granted) :
    Op.collected? (.takeGrant t) (g.bus.step (.takeGrant t)).1 = some t ∧
      g.attend (.takeGrant t) = (g.withBus (g.bus.takeGrant t).2).unpark t := by
  have hstep : g.bus.step (.takeGrant t) = (.takeGrant true, (g.bus.takeGrant t).2) := by
    simp only [Bus.step, Bus.takeGrant, ht, decide_true]
  have hc : Op.collected? (.takeGrant t) (g.bus.step (.takeGrant t)).1 = some t := by
    rw [hstep]
    rfl
  refine ⟨hc, ?_⟩
  have hd : Op.dismissed? (.takeGrant t) (g.bus.step (.takeGrant t)).1 = some t := hc
  rw [attend_of_dismissed hd, hstep]
  exact call_nil _

theorem attend_look (ht : t ∉ g.bus.granted) : g.attend (.takeGrant t) = g := by
  have hstep : g.bus.step (.takeGrant t) = (.takeGrant false, g.bus) := by
    have hbus := Bus.takeGrant_of_notMem ht
    simp only [Bus.step, Bus.takeGrant, ht, decide_false] at hbus ⊢
    rw [hbus]
  rw [attend_of_neither (by rw [hstep]; rfl) (by rw [hstep]; rfl), hstep]
  exact call_nil _

namespace Tidy

variable (h : g.Tidy)

include h

/-- A caller that asks for a slot gets one or goes to sleep. -/
theorem arrive (c : Cell) :
    (∃ t, Op.arrived? (.request c) (g.bus.step (.request c)).1 = some (t, c) ∧
        g.arrive c = (.ok (.admitted ⟨t, c, false⟩), g.attend (.request c))) ∨
      ∃ t, Op.joined? (.request c) (g.bus.step (.request c)).1 = some (t, c) ∧
        g.arrive c = (.ok (.parked t), g.attend (.request c)) := by
  cases hr : g.bus.request c with
  | mk answer bus =>
    have hstep : g.bus.step (.request c) = (.request answer, bus) := by simp only [Bus.step, hr]
    cases answer with
    | admitted t =>
      refine Or.inl ⟨t, by rw [hstep]; rfl, ?_⟩
      rw [attend_of_neither (by rw [hstep]; rfl) (by rw [hstep]; rfl), hstep]
      simp [Gate.arrive, h.sane, hr, Answer.woken]
    | queued t =>
      have hj : Op.joined? (.request c) (g.bus.step (.request c)).1 = some (t, c) := by
        rw [hstep]
        rfl
      refine Or.inr ⟨t, hj, ?_⟩
      rw [attend_of_joined hj, hstep]
      simp [Gate.arrive, h.sane, hr]

theorem tryArrive (c : Cell) :
    (∃ t, Op.arrived? (.tryRequest c) (g.bus.step (.tryRequest c)).1 = some (t, c) ∧
        g.tryArrive c = (.ok ⟨t, c, false⟩, g.attend (.tryRequest c))) ∨
      g.tryArrive c = (.error (.wouldBlock c), g.attend (.tryRequest c)) := by
  cases hr : g.bus.tryRequest c with
  | mk answer bus =>
    have hstep : g.bus.step (.tryRequest c) = (.tryRequest answer, bus) := by
      simp only [Bus.step, hr]
    have hattend : g.attend (.tryRequest c) = g.withBus bus := by
      rw [attend_of_neither rfl rfl, hstep]
      exact call_nil _
    rw [hattend]
    cases answer with
    | some t =>
      refine Or.inl ⟨t, by rw [hstep]; rfl, ?_⟩
      simp [Gate.tryArrive, h.sane, hr]
    | none =>
      right
      simp [Gate.tryArrive, h.sane, hr]

/-- A sleeping caller that wakes returns with its grant or goes back to sleep. -/
theorem resume (t : Ticket) (c : Cell) :
    (t ∈ g.bus.granted ∧
        g.resume t c = (.ok (some ⟨t, c, true⟩), g.attend (.takeGrant t))) ∨
      t ∉ g.bus.granted ∧ g.resume t c = (.ok none, g.attend (.takeGrant t)) := by
  by_cases ht : t ∈ g.bus.granted
  · refine Or.inl ⟨ht, ?_⟩
    rw [(attend_collect ht).2]
    simp [Gate.resume, h.sane, Bus.takeGrant, ht]
  · refine Or.inr ⟨ht, ?_⟩
    -- it has not been called, for only those with a grant are
    have hcalled : g.called.filter (· ≠ t) = g.called :=
      Bus.filter_ne_eq_self fun hmem => ht (h.mem_called.1 hmem)
    have hopen : ¬ g.poisoned = true := by simp [h.sane]
    rw [attend_look ht, Gate.resume, if_neg hopen]
    simp only [Bus.takeGrant, ht, decide_false, hcalled]

/-- A sleeping caller whose time is over returns with its grant or withdraws.  It has not lost its
place in the meantime. -/
theorem expire (hpending : t ∈ g.bus.pending) (c : Cell) (waited : Span) :
    (t ∈ g.bus.granted ∧
        g.expire t c waited = (.ok ⟨t, c, true⟩, g.attend (.takeGrant t))) ∨
      t ∉ g.bus.granted ∧
        Op.withdrawn? (.withdraw t) (g.bus.step (.withdraw t)).1 = some t ∧
        g.expire t c waited = (.error (.timedOut c waited), g.attend (.withdraw t)) := by
  by_cases ht : t ∈ g.bus.granted
  · refine Or.inl ⟨ht, ?_⟩
    rw [(attend_collect ht).2]
    simp [Gate.expire, h.sane, Bus.takeGrant, ht]
  · have hwaits := (Bus.mem_pending.1 hpending).resolve_right ht
    obtain ⟨woken, hremoved⟩ := Bus.withdraw_removed_iff.2 hwaits
    have hstep : g.bus.step (.withdraw t) =
        (.withdraw (.removed woken), (g.bus.withdraw t).2) := by
      simp only [Bus.step, hremoved]
    have hw : Op.withdrawn? (.withdraw t) (g.bus.step (.withdraw t)).1 = some t := by
      rw [hstep]
      rfl
    refine Or.inr ⟨ht, hw, ?_⟩
    have hpair : (g.unpark t).bus.withdraw t = (.removed woken, (g.bus.withdraw t).2) := by
      rw [← hremoved]
      rfl
    rw [attend_of_dismissed (Bus.dismissed_of_withdrawn hw), hstep]
    simp only [Gate.expire, h.sane, Bus.takeGrant, ht, decide_false, Bool.false_eq_true, if_false,
      hpair]
    rfl

theorem release (c : Cell) :
    ((g.bus.step (.release c)).1.gaveBack = true ∧
        g.release c = (.ok (), g.attend (.release c))) ∨
      (g.bus.step (.release c)).1.gaveBack = false ∧
        g.release c = (.error (.unmatchedRelease c), g.attend (.release c)) := by
  rw [attend_of_neither rfl rfl]
  have hopen : ¬ g.poisoned = true := by simp [h.sane]
  rw [Gate.release, if_neg hopen]
  cases ho : g.bus.oldestHolder? c with
  | none =>
    right
    simp only [Bus.step, Bus.release, ho]
    exact ⟨rfl, congrArg (Prod.mk _) (call_nil _).symm⟩
  | some t =>
    left
    simp only [Bus.step, Bus.release, ho]
    exact ⟨rfl, rfl⟩

theorem releaseTicket (t : Ticket) :
    ((g.bus.step (.releaseTicket t)).1.gaveBack = true ∧
        g.releaseTicket t = (.ok (), g.attend (.releaseTicket t))) ∨
      (g.bus.step (.releaseTicket t)).1.gaveBack = false ∧
        g.releaseTicket t = (.error (.staleTicket t), g.attend (.releaseTicket t)) := by
  rw [attend_of_neither rfl rfl]
  have hopen : ¬ g.poisoned = true := by simp [h.sane]
  rw [Gate.releaseTicket, if_neg hopen]
  cases ho : g.bus.cellOf? t with
  | none =>
    right
    simp only [Bus.step, Bus.releaseTicket, ho]
    exact ⟨rfl, congrArg (Prod.mk _) (call_nil _).symm⟩
  | some c =>
    left
    simp only [Bus.step, Bus.releaseTicket, ho]
    exact ⟨rfl, rfl⟩

end Tidy

end Gate

end HalfDuplex

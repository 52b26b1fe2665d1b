import HalfDuplex.Proofs.Exclusion
import HalfDuplex.Proofs.Overtaking

/-!
# Ties that go to the oldest waiter

Under the oldest-first rule a tie between the directions goes to the one with the oldest waiter.
The streak limit does not count such cycles.  What bounds them is that the oldest waiter leaves with
them: a ticket can be passed over only once for every older one.

But elevated tickets are served first.  If the oldest waiter is a normal one, younger elevated
tickets of its direction can fill the bus, and it wins the next tie again.

* `Bus.older` : the waiters of a direction that came before a ticket; nobody joins them later.
* `Bus.inVain` : an operation begins a cycle for the oldest waiter and leaves it waiting.
* `Bus.elevated_of_inVain` : this happens to a normal ticket only, and only over a direction with
  elevated waiters.
* `Bus.oldestBudget_step`, `Bus.length_cycles_le_oldestBudget` : the older waiters and the streak
  bound the cycles that pass over a ticket, up to those begun in vain.
* `Bus.cycles_past_oldest` : the bound in numbers.
* `Bus.passed_over` : with turns in vain, one older waiter allows any number of cycles.
-/

namespace HalfDuplex

namespace Bus

/-- The tickets that wait for direction `d`. -/
def waiters (b : Bus) (d : Direction) : List Ticket :=
  b.waiting.get ⟨d, .elevated⟩ ++ b.waiting.get ⟨d, .normal⟩

/-- The tickets that wait for direction `d` and came before ticket `t`. -/
def older (b : Bus) (d : Direction) (t : Ticket) : List Ticket := (b.waiters d).filter (· < t)

/-- The operation begins a cycle for a direction because that has the oldest waiter, and leaves this
one waiting. -/
def inVain (b : Bus) (op : Op) : Bool :=
  (b.begun (b.moves op)).any fun k => k.why = some .oldestFirst &&
    (b.oldestWaiter? k.direction).any (· ∈ (b.step op).2.waiters k.direction)

/-- How many operations of a run begin a cycle in vain. -/
def vainTurns (b : Bus) : List Op → Nat
  | [] => 0
  | op :: ops => (if b.inVain op then 1 else 0) + (b.step op).2.vainTurns ops

/-- How many cycles can still pass over ticket `t` of direction `d`, if none is in vain: each older
ticket may come first, with a streak before it. -/
def oldestBudget (b : Bus) (d : Direction) (t : Ticket) : Nat :=
  (b.older d.opposite t).length * (b.config.streakLimit + 1) +
    b.service.budget d b.config.streakLimit

variable {b : Bus} {d : Direction} {m : Move} {ms : List Move} {op : Op} {ops : List Op}
  {t u v : Ticket} {c : Cell}

theorem mem_waiters : u ∈ b.waiters d ↔ ∃ p, u ∈ b.waiting.get ⟨d, p⟩ := by
  rw [waiters, List.mem_append]
  constructor
  · rintro (h | h)
    · exact ⟨_, h⟩
    · exact ⟨_, h⟩
  · rintro ⟨p, h⟩
    cases p with
    | elevated => exact Or.inl h
    | normal => exact Or.inr h

theorem hasWaiters_of_mem (h : t ∈ b.waiting.get c) : b.hasWaiters c.direction = true :=
  hasWaiters_eq_true.2 ⟨c.priority, List.ne_nil_of_mem h⟩

/-! ### Old tickets only leave the queues -/

theorem filter_lt_perform (hm : b.Legal m) (ht : t ≤ b.nextTicket) (c : Cell) :
    (((b.perform m).waiting.get c).filter (· < t)).Sublist
      ((b.waiting.get c).filter (· < t)) := by
  rw [waiting_perform]
  cases hm with
  | enqueue =>
    rw [PerCell.get_set]
    split_ifs with hc
    -- the new ticket is not an old one
    · subst hc
      have hnew : [b.nextTicket].filter (· < t) = [] := by simpa using ht
      rw [List.filter_append, hnew, List.append_nil]
    · exact List.Sublist.refl _
  | board =>
    rw [PerCell.get_set]
    split_ifs with hc
    · subst hc
      exact (List.tail_sublist _).filter _
    · exact List.Sublist.refl _
  | leave =>
    rw [PerCell.get_set]
    split_ifs with hc
    · subst hc
      exact List.erase_sublist.filter _
    · exact List.Sublist.refl _
  | arrive | collect | vacate | refuse => exact List.Sublist.refl _

theorem filter_lt_performAll (hms : ∀ m ∈ b.moments ms, m.Legal) (ht : t ≤ b.nextTicket)
    (c : Cell) : (((b.performAll ms).waiting.get c).filter (· < t)).Sublist
      ((b.waiting.get c).filter (· < t)) := by
  induction ms generalizing b with
  | nil => exact List.Sublist.refl _
  | cons m ms ih =>
    rw [moments_cons, List.forall_mem_cons] at hms
    have hle : t ≤ (b.perform m).nextTicket := Nat.le_trans ht (le_nextTicket_perform b m)
    exact (ih hms.2 hle).trans (filter_lt_perform hms.1 ht c)

theorem waiting_of_performAll (hms : ∀ m ∈ b.moments ms, m.Legal) (hu : u < b.nextTicket)
    (h : u ∈ (b.performAll ms).waiting.get c) : u ∈ b.waiting.get c := by
  have hmem : u ∈ ((b.performAll ms).waiting.get c).filter (· < u + 1) :=
    List.mem_filter.2 ⟨h, by simp⟩
  exact (List.mem_filter.1 ((filter_lt_performAll hms hu c).mem hmem)).1

theorem older_step (h : b.Sound) (hs : b.Settled) (op : Op) (ht : t ≤ b.nextTicket) :
    ((b.step op).2.older d t).Sublist (b.older d t) := by
  have hms := (legal_moves h hs op).1
  rw [step_eq_performAll]
  simp only [older, waiters, List.filter_append]
  exact (filter_lt_performAll hms ht _).append (filter_lt_performAll hms ht _)

/-! ### The oldest waiter -/

theorem oldest_of_head? {l : List Ticket} (hl : l.Pairwise (· < ·)) (hu : l.head? = some u) :
    u ∈ l ∧ ∀ v ∈ l, u ≤ v := by
  obtain ⟨rest, rfl⟩ := List.head?_eq_some_iff.1 hu
  refine ⟨List.mem_cons_self, fun v hv => ?_⟩
  rcases List.mem_cons.1 hv with rfl | hv
  · exact Nat.le_refl _
  · exact Nat.le_of_lt ((List.pairwise_cons.1 hl).1 v hv)

theorem oldestWaiter?_eq_some (hsorted : ∀ c, (b.waiting.get c).Pairwise (· < ·))
    (hu : b.oldestWaiter? d = some u) : u ∈ b.waiters d ∧ ∀ v ∈ b.waiters d, u ≤ v := by
  unfold oldestWaiter? at hu
  simp only [waiters, List.mem_append]
  split at hu
  · rename_i x y hx hy
    obtain ⟨hxmem, hxle⟩ := oldest_of_head? (hsorted _) hx
    obtain ⟨hymem, hyle⟩ := oldest_of_head? (hsorted _) hy
    obtain rfl : min x y = u := Option.some.inj hu
    refine ⟨?_, ?_⟩
    · rcases Nat.le_total x y with hxy | hxy
      · exact Or.inl ((Nat.min_eq_left hxy).symm ▸ hxmem)
      · exact Or.inr ((Nat.min_eq_right hxy).symm ▸ hymem)
    · rintro v (hv | hv)
      · exact Nat.le_trans (Nat.min_le_left x y) (hxle v hv)
      · exact Nat.le_trans (Nat.min_le_right x y) (hyle v hv)
  · rename_i x hx hy
    obtain rfl : x = u := Option.some.inj hu
    rw [List.head?_eq_none_iff.1 hy]
    simpa using oldest_of_head? (hsorted _) hx
  · rename_i hx
    rw [List.head?_eq_none_iff.1 hx]
    simpa using oldest_of_head? (hsorted _) hu

theorem exists_oldestWaiter? (h : b.hasWaiters d = true) : ∃ u, b.oldestWaiter? d = some u := by
  obtain ⟨p, hp⟩ := hasWaiters_eq_true.1 h
  unfold oldestWaiter?
  split
  · exact ⟨_, rfl⟩
  · exact ⟨_, rfl⟩
  · rename_i hnone
    cases p with
    | elevated => exact absurd (List.head?_eq_none_iff.1 hnone) hp
    | normal => exact ⟨_, List.head?_eq_some_head hp⟩

theorem oldestSide_eq (h : b.TicketsFit) (hw : b.hasWaiters d = true)
    (hw' : b.hasWaiters d.opposite = true) (hside : b.oldestSide = d) :
    ∃ u, b.oldestWaiter? d = some u ∧ ∀ v ∈ b.waiters d.opposite, u < v := by
  obtain ⟨u, hu⟩ := exists_oldestWaiter? hw
  obtain ⟨u', hu'⟩ := exists_oldestWaiter? hw'
  have hle : u ≤ u' := by
    cases d with
    | outbound =>
      have hin : b.oldestWaiter? .inbound = some u' := hu'
      simpa [oldestSide, hu, hin] using hside
    | inbound =>
      have hout : b.oldestWaiter? .outbound = some u' := hu'
      simp only [oldestSide, hu, hout] at hside
      split_ifs at hside with hlt
      exact Nat.le_of_lt hlt
  refine ⟨u, hu, fun v hv => Nat.lt_of_le_of_ne ?_ ?_⟩
  · exact Nat.le_trans hle ((oldestWaiter?_eq_some h.sorted hu').2 v hv)
  -- no ticket waits for both directions
  · rintro rfl
    obtain ⟨p, hp⟩ := mem_waiters.1 (oldestWaiter?_eq_some h.sorted hu).1
    obtain ⟨p', hp'⟩ := mem_waiters.1 hv
    exact Direction.opposite_ne d (congrArg Cell.direction (h.one_queue hp' hp))

/-! ### Cycles for the oldest waiter -/

/-- Under the oldest-first rule a waiting direction is passed over on a tie that goes to the other
side, or within the streak limit. -/
theorem nextTurn_oldestFirst (hfair : b.config.fairness = .oldestFirst)
    (hw : b.hasWaiters d = true) {r : Reason} (hn : b.nextTurn = some (d.opposite, r)) :
    (r = .oldestFirst ∧ b.preferred? = none ∧ b.oldestSide = d.opposite) ∨
      r ≠ .oldestFirst ∧ (b.lastServed = some d.opposite → r = .elevated ∧
        b.streak < b.config.streakLimit) := by
  have hc := contested_of_nextTurn hw hn
  cases hp : b.preferred? with
  | some e =>
    refine Or.inr ⟨?_, fun hlast => ?_⟩
    · rintro rfl
      exact contested_ne_oldestFirst hp (congrArg Prod.snd hc)
    · obtain ⟨he, hlt, -⟩ := contested_again hp hlast hc
      exact ⟨he, hlt⟩
  | none =>
    simp only [contested, hp, hfair] at hc
    obtain ⟨hside, rfl⟩ := Prod.mk.inj hc
    exact Or.inl ⟨rfl, rfl, hside⟩

theorem front_leaves_dispatch (h : b.Sound) {k : Cycle} (hk : k ∈ b.begun b.dispatchMoves) :
    ∃ u c, c.direction = k.direction ∧ b.Front u c ∧
      ∀ c', u ∉ (b.performAll b.dispatchMoves).waiting.get c' := by
  have hms := (legal_dispatchMoves h).1
  have h0 : b.active = 0 := by
    by_contra hrun
    rw [begun_dispatchMoves_running h hrun] at hk
    cases hk
  rw [begun_dispatchMoves_empty h h0] at hk
  cases hn : b.nextTurn with
  | none =>
    rw [hn] at hk
    cases hk
  | some turn =>
    obtain rfl : k = ⟨turn.1, some turn.2⟩ := by simpa [hn] using hk
    obtain ⟨u, c, room, hd, hf, hmoves⟩ := dispatchMoves_of_nextTurn h h0 hn
    rw [hmoves, moments_cons, List.forall_mem_cons] at hms
    obtain ⟨hm, hms⟩ := hms
    refine ⟨u, c, hd, hf, fun c' hw => ?_⟩
    rw [hmoves, performAll_cons] at hw
    have hlt := Nat.lt_of_lt_of_le (h.tickets.waiting_lt hf.mem)
      (le_nextTicket_perform b (.board u c (some turn.2)))
    exact h.tickets.not_waiting_of_admitted hm rfl (waiting_of_performAll hms hlt hw)

/-- With every cycle that is not begun by an arrival, the next waiter of its direction leaves. -/
theorem front_leaves (h : b.Sound) (hs : b.Settled) {k : Cycle} {r : Reason}
    (hk : k ∈ b.begun (b.moves op)) (hr : k.why = some r) :
    ∃ u c, c.direction = k.direction ∧ b.Front u c ∧ ∀ c', u ∉ (b.step op).2.waiting.get c' := by
  have hrow := b.row_moves op
  rw [step_eq_performAll]
  generalize b.moves op = ms at hk hrow ⊢
  cases hrow with
  | nothing => cases hk
  | arrive =>
    rw [begun_cons, cycle?_arrive, begun_nil, List.append_nil, Option.mem_toList] at hk
    split_ifs at hk
    cases hk
    cases hr
  | enqueue | collect | refuse =>
    rw [begun_cons, cycle?_of_not_admitted rfl] at hk
    cases hk
  | leave hmem =>
    rw [begun_leave h hs hmem] at hk
    cases hk
  | vacate hmem =>
    rw [begun_cons, cycle?_of_not_admitted rfl] at hk
    obtain ⟨u, c, hd, hf, hleaves⟩ := front_leaves_dispatch (h.perform (.vacate hs hmem)) hk
    -- the queues before the slot was given back are the same
    exact ⟨u, c, hd, ⟨hf.head, hf.elevated_first⟩, hleaves⟩

theorem inVain_eq_true : b.inVain op = true ↔ ∃ k ∈ b.begun (b.moves op),
    k.why = some .oldestFirst ∧
      ∃ u, b.oldestWaiter? k.direction = some u ∧ u ∈ (b.step op).2.waiters k.direction := by
  simp [inVain, List.any_eq_true, Option.any_eq_true]

/-- **Who is served in vain.**  If direction `d` is passed over in vain, it has an elevated waiter,
and the oldest waiter of the other direction is a normal one. -/
theorem elevated_of_inVain (h : b.Sound) (hs : b.Settled)
    (hfair : b.config.fairness = .oldestFirst) (hw : b.hasWaiters d = true)
    (hno : ∀ k ∈ b.begun (b.moves op), k.direction ≠ d) (hv : b.inVain op = true) :
    b.hasWaitersIn ⟨d, .elevated⟩ = true ∧
      ∃ u ∈ b.waiting.get ⟨d.opposite, .normal⟩, ∀ v ∈ b.waiters d, u < v := by
  obtain ⟨k, hk, hwhy, u, hu, hstays⟩ := inVain_eq_true.1 hv
  obtain ⟨v, ⟨e, p⟩, hcd, hf, hleaves⟩ := front_leaves h hs hk hwhy
  rcases begun_passing h hs op hw hno with hks | ⟨r, hn, hks⟩
  · rw [hks] at hk
    cases hk
  rw [hks, List.mem_singleton] at hk
  subst hk hcd
  obtain rfl : r = .oldestFirst := Option.some.inj hwhy
  obtain ⟨-, hnone, hside⟩ := (nextTurn_oldestFirst hfair hw hn).resolve_right fun hne => hne.1 rfl
  obtain ⟨u', hu', hlt⟩ :=
    oldestSide_eq h.tickets (hasWaiters_of_nextTurn hn) (by simpa using hw) hside
  obtain rfl : u' = u := Option.some.inj (hu'.symm.trans hu)
  rw [Direction.opposite_opposite] at hlt
  obtain ⟨humem, hule⟩ := oldestWaiter?_eq_some h.tickets.sorted hu
  obtain ⟨p', hp'⟩ := mem_waiters.1 humem
  -- the next waiter leaves, so it is not the oldest, but an elevated one in front of it
  have huv : u' < v := by
    refine Nat.lt_of_le_of_ne (hule v (mem_waiters.2 ⟨p, hf.mem⟩)) ?_
    rintro rfl
    obtain ⟨p'', hp''⟩ := mem_waiters.1 hstays
    exact hleaves _ hp''
  have hnot := hf.not_precedes (h.tickets.sorted _) hp'
  obtain ⟨rfl, rfl⟩ := priorities_of_not_precedes (by rfl) huv hnot
  refine ⟨?_, u', hp', hlt⟩
  rw [← preferred?_eq_none hnone d]
  exact hasWaitersIn_eq_true.2 (List.ne_nil_of_mem hf.mem)

/-! ### The budget -/

theorem length_older_step_lt (h : b.Sound) (hs : b.Settled)
    (hk : ⟨d, some .oldestFirst⟩ ∈ b.begun (b.moves op)) (hu : b.oldestWaiter? d = some u)
    (hut : u < t) (ht : t ≤ b.nextTicket) (hv : b.inVain op = false) :
    ((b.step op).2.older d t).length < (b.older d t).length := by
  have hsub : ((b.step op).2.older d t).Sublist (b.older d t) := older_step h hs op ht
  refine Nat.lt_of_le_of_ne hsub.length_le fun hlen => ?_
  have hmem : u ∈ b.older d t :=
    List.mem_filter.2 ⟨(oldestWaiter?_eq_some h.tickets.sorted hu).1, by simpa using hut⟩
  rw [← hsub.eq_of_length hlen] at hmem
  have htrue : b.inVain op = true :=
    inVain_eq_true.2 ⟨_, hk, rfl, u, hu, (List.mem_filter.1 hmem).1⟩
  rw [htrue] at hv
  cases hv

/-- **One operation.**  A cycle that passes over a waiter draws on its budget, if it is not begun in
vain. -/
theorem oldestBudget_step (h : b.Sound) (hs : b.Settled)
    (hfair : b.config.fairness = .oldestFirst) (ht : t ∈ b.waiting.get c)
    (hno : ∀ k ∈ b.begun (b.moves op), k.direction ≠ c.direction) :
    (b.step op).2.oldestBudget c.direction t + (b.begun (b.moves op)).length ≤
      b.oldestBudget c.direction t +
        (if b.inVain op then 1 else 0) * (b.config.streakLimit + 1) := by
  have hw : b.hasWaiters c.direction = true := hasWaiters_of_mem ht
  have hnew : t ≤ b.nextTicket := Nat.le_of_lt (h.tickets.waiting_lt ht)
  have hfewer : ((b.step op).2.older c.direction.opposite t).length * (b.config.streakLimit + 1) ≤
      (b.older c.direction.opposite t).length * (b.config.streakLimit + 1) :=
    Nat.mul_le_mul_right _ (older_step h hs op hnew).length_le
  rw [oldestBudget, oldestBudget, config_step, service_step]
  rcases begun_passing h hs op hw hno with hks | ⟨r, hn, hks⟩
  · rw [hks, List.foldl_nil, List.length_nil]
    omega
  rw [hks, List.foldl_cons, List.foldl_nil, List.length_singleton]
  rcases nextTurn_oldestFirst hfair hw hn with ⟨rfl, -, hside⟩ | ⟨-, hlast⟩
  -- a tie: the streak begins anew, but there is one older waiter less
  · have hbudget : (b.service.after ⟨c.direction.opposite, some .oldestFirst⟩).budget c.direction
        b.config.streakLimit ≤ b.config.streakLimit := Service.budget_le_of_last rfl
    cases hv : b.inVain op with
    | true =>
      rw [if_pos rfl]
      omega
    | false =>
      obtain ⟨u, hu, hbefore⟩ :=
        oldestSide_eq h.tickets (hasWaiters_of_nextTurn hn) (by simpa using hw) hside
      have hut : u < t := by
        refine hbefore t ?_
        rw [Direction.opposite_opposite]
        exact mem_waiters.2 ⟨c.priority, ht⟩
      have hk : ⟨c.direction.opposite, some .oldestFirst⟩ ∈ b.begun (b.moves op) := by
        rw [hks]
        exact List.mem_singleton_self _
      have hless := Nat.mul_le_mul_right (b.config.streakLimit + 1)
        (length_older_step_lt h hs hk hu hut hnew hv)
      rw [Nat.succ_mul] at hless
      omega
  -- otherwise the streak limit applies
  · have hdraw : (b.service.after ⟨c.direction.opposite, some r⟩).budget c.direction
        b.config.streakLimit < b.service.budget c.direction b.config.streakLimit := by
      refine Service.budget_after_lt fun hl => ?_
      obtain ⟨rfl, hlt⟩ := hlast hl
      exact ⟨rfl, hlt⟩
    omega

/-- **Runs.**  The cycles that pass over a waiter draw on its budget, up to those begun in vain. -/
theorem length_cycles_le_oldestBudget (h : b.Sound) (hs : b.Settled)
    (hfair : b.config.fairness = .oldestFirst) (hwait : ∀ s ∈ b.stages ops, t ∈ s.waiting.get c)
    (hno : ∀ k ∈ b.cycles ops, k.direction ≠ c.direction) :
    (b.cycles ops).length ≤
      b.oldestBudget c.direction t + b.vainTurns ops * (b.config.streakLimit + 1) := by
  induction ops generalizing b with
  | nil => exact Nat.zero_le _
  | cons op ops ih =>
    rw [stages, List.forall_mem_cons] at hwait
    rw [cycles_cons, List.forall_mem_append] at hno
    have hfirst := oldestBudget_step h hs hfair hwait.1 hno.1
    have hrest := ih (h.step hs op) (hs.step h op) (by rw [config_step]; exact hfair) hwait.2 hno.2
    rw [config_step] at hrest
    rw [cycles_cons, List.length_append, vainTurns, Nat.add_mul]
    omega

/-- No cycle passes over a waiter in vain, while no elevated ticket waits on its side or if none of
the older tickets is a normal one. -/
theorem vainTurns_eq_zero (h : b.Sound) (hs : b.Settled)
    (hfair : b.config.fairness = .oldestFirst) (hwait : ∀ s ∈ b.stages ops, t ∈ s.waiting.get c)
    (hno : ∀ k ∈ b.cycles ops, k.direction ≠ c.direction)
    (hcond : (∀ s ∈ b.stages ops, s.hasWaitersIn ⟨c.direction, .elevated⟩ = false) ∨
      ∀ u ∈ b.waiting.get ⟨c.direction.opposite, .normal⟩, t < u) : b.vainTurns ops = 0 := by
  induction ops generalizing b with
  | nil => rfl
  | cons op ops ih =>
    rw [stages, List.forall_mem_cons] at hwait
    rw [cycles_cons, List.forall_mem_append] at hno
    have hlt : t < b.nextTicket := h.tickets.waiting_lt hwait.1
    have hrest : (b.step op).2.vainTurns ops = 0 := by
      refine ih (h.step hs op) (hs.step h op) (by rw [config_step]; exact hfair) hwait.2 hno.2 ?_
      rcases hcond with hnone | hnormal
      · rw [stages, List.forall_mem_cons] at hnone
        exact Or.inl hnone.2
      · refine Or.inr fun u hu => ?_
        by_contra hle
        rw [step_eq_performAll] at hu
        have hold : u < b.nextTicket := Nat.lt_of_le_of_lt (Nat.not_lt.1 hle) hlt
        exact hle (hnormal u (waiting_of_performAll (legal_moves h hs op).1 hold hu))
    have hnot : b.inVain op = false := by
      by_contra hv
      obtain ⟨helev, u, hu, hbefore⟩ := elevated_of_inVain h hs hfair (hasWaiters_of_mem hwait.1)
        hno.1 (by simpa using hv)
      rcases hcond with hnone | hnormal
      · rw [hnone b (by rw [stages]; exact List.mem_cons_self)] at helev
        cases helev
      · exact Nat.lt_asymm (hnormal u hu) (hbefore t (mem_waiters.2 ⟨c.priority, hwait.1⟩))
    rw [vainTurns, hnot, hrest]
    rfl

/-- **Ties that go to the oldest waiter.**  Take a run during which ticket `t` always waits and no
cycle begins for its direction.  If `k` waiters of the other side came before `t` and `h` turns are
taken in vain, at most `(k + h + 1) * (max limit 1 + 1)` cycles begin for the other side.  No turn
is in vain while no elevated ticket waits on the side of `t`, or if none of the `k` waiters is a
normal one. -/
theorem cycles_past_oldest (h : b.Reachable) (hfair : b.config.fairness = .oldestFirst)
    (hwait : ∀ s ∈ b.stages ops, t ∈ s.waiting.get c)
    (hno : ∀ k ∈ b.cycles ops, k.direction ≠ c.direction) :
    (b.cycles ops).countP (fun k => k.direction = c.direction.opposite) ≤
        ((b.older c.direction.opposite t).length + b.vainTurns ops + 1) *
          (max b.config.streakLimit 1 + 1) ∧
      ((∀ s ∈ b.stages ops, s.hasWaitersIn ⟨c.direction, .elevated⟩ = false) ∨
          (∀ u ∈ b.waiting.get ⟨c.direction.opposite, .normal⟩, t < u) →
        (b.cycles ops).countP (fun k => k.direction = c.direction.opposite) ≤
          ((b.older c.direction.opposite t).length + 1) * (max b.config.streakLimit 1 + 1)) := by
  have hle : (b.cycles ops).countP (fun k => k.direction = c.direction.opposite) ≤
      ((b.older c.direction.opposite t).length + b.vainTurns ops + 1) *
        (max b.config.streakLimit 1 + 1) := by
    calc (b.cycles ops).countP (fun k => k.direction = c.direction.opposite)
        ≤ (b.cycles ops).length := List.countP_le_length
      _ ≤ b.oldestBudget c.direction t + b.vainTurns ops * (b.config.streakLimit + 1) :=
        length_cycles_le_oldestBudget h.sound h.settled hfair hwait hno
      _ ≤ ((b.older c.direction.opposite t).length + b.vainTurns ops + 1) *
          (b.config.streakLimit + 1) := by
        have hbudget : b.service.budget c.direction b.config.streakLimit ≤
          b.config.streakLimit + 1 := Service.budget_le
        rw [oldestBudget, Nat.add_mul, Nat.add_mul, Nat.one_mul]
        omega
      _ ≤ _ := Nat.mul_le_mul_left _ (Nat.succ_le_succ (Nat.le_max_left _ _))
  refine ⟨hle, fun hcond => ?_⟩
  rwa [vainTurns_eq_zero h.sound h.settled hfair hwait hno hcond, Nat.add_zero] at hle

/-- A normal inbound ticket is passed over three times with a streak limit of one, once of them for
the one ticket that came before it. -/
theorem cycles_past_oldest_three : ∃ b ops, Bus.Reachable b ∧
    b.config = ⟨1, .oldestFirst, 1, false⟩ ∧
    (∀ s ∈ b.stages ops, 2 ∈ s.waiting.get ⟨.inbound, .normal⟩) ∧
    (∀ k ∈ b.cycles ops, k.direction ≠ .inbound) ∧
    (∀ s ∈ b.stages ops, s.hasWaitersIn ⟨.inbound, .elevated⟩ = false) ∧
    b.older .outbound 2 = [1] ∧ (b.cycles ops).countP (fun k => k.direction = .outbound) = 3 ∧
    (b.cycles ops).countP (fun k => k.direction = .outbound) ≤ (1 + 1) * (max 1 1 + 1) := by
  refine ⟨((Bus.new ⟨1, .oldestFirst, 1, false⟩).run [.request ⟨.inbound, .normal⟩,
      .request ⟨.outbound, .normal⟩, .request ⟨.inbound, .normal⟩,
      .request ⟨.outbound, .elevated⟩]).2,
    [.releaseTicket 0, .releaseTicket 3, .request ⟨.outbound, .elevated⟩, .releaseTicket 1],
    ⟨by decide, _, rfl⟩, rfl, by decide, by decide, by decide, by decide, by decide, ?_⟩
  exact (cycles_past_oldest (c := ⟨.inbound, .normal⟩) (t := 2) ⟨by decide, _, rfl⟩ rfl (by decide)
    (by decide)).2 (Or.inl (by decide))

/-- An elevated inbound ticket is passed over five times, although only one outbound ticket came
before it and the streak limit is one. -/
theorem oldest_passed_over_five : ∃ b ops, Bus.Reachable b ∧
    b.config = ⟨1, .oldestFirst, 1, false⟩ ∧
    (∀ s ∈ b.stages ops, 2 ∈ s.waiting.get ⟨.inbound, .elevated⟩) ∧
    (∀ k ∈ b.cycles ops, k.direction ≠ .inbound) ∧
    (b.cycles ops).countP (fun k => k.direction = .outbound) >
      ((b.older .outbound 2).length + 1) * (max b.config.streakLimit 1 + 1) := by
  refine ⟨((Bus.new ⟨1, .oldestFirst, 1, false⟩).run [.request ⟨.outbound, .normal⟩,
      .request ⟨.outbound, .normal⟩, .request ⟨.inbound, .elevated⟩,
      .request ⟨.outbound, .elevated⟩]).2,
    [.releaseTicket 0, .request ⟨.outbound, .elevated⟩, .releaseTicket 3,
      .request ⟨.outbound, .elevated⟩, .releaseTicket 4, .request ⟨.outbound, .elevated⟩,
      .releaseTicket 5, .request ⟨.outbound, .elevated⟩, .releaseTicket 6],
    ⟨by decide, _, rfl⟩, rfl, by decide, by decide, by decide⟩

/-! ### No bound with elevated callers on both sides -/

/-- Elevated ticket `t` holds the only slot, the normal ticket 1 of its direction waits, and so does
the elevated ticket 2 of the other direction. -/
structure Crowded (b : Bus) (limit : Nat) (t : Ticket) : Prop where
  config : b.config = ⟨1, .oldestFirst, limit, false⟩
  active : b.active = 1
  current : b.current = some .outbound
  waiting : b.waiting = ⟨[], [1], [2], []⟩
  holders : b.holders = [(t, ⟨.outbound, .elevated⟩)]
  nextTicket : b.nextTicket = t + 1

/-- Again and again an elevated outbound caller arrives before the slot is given back. -/
def crowd (t : Ticket) : Nat → List Op
  | 0 => []
  | n + 1 => .request ⟨.outbound, .elevated⟩ :: .releaseTicket t :: crowd (t + 1) n

namespace Crowded

variable {limit : Nat}

theorem round (h : b.Crowded limit t) :
    let s := (b.step (.request ⟨.outbound, .elevated⟩)).2
    b.begun (b.moves (.request ⟨.outbound, .elevated⟩)) = [] ∧
      s.waiting = ⟨[t + 1], [1], [2], []⟩ ∧
      s.begun (s.moves (.releaseTicket t)) = [⟨.outbound, some .oldestFirst⟩] ∧
      (s.step (.releaseTicket t)).2.Crowded limit (t + 1) := by
  intro s
  have hrequest : b.moves (.request ⟨.outbound, .elevated⟩) =
      [.enqueue (t + 1) ⟨.outbound, .elevated⟩] := by
    simp [moves, accepts, h.config, h.active, h.nextTicket]
  have hs : s = b.perform (.enqueue (t + 1) ⟨.outbound, .elevated⟩) := by
    rw [← performAll_nil (b.perform _), ← performAll_cons, ← hrequest, ← step_eq_performAll]
  have hwaiting : s.waiting = ⟨[t + 1], [1], [2], []⟩ := by
    simp [hs, waiting_perform, h.waiting, PerCell.set, PerCell.get]
  have hrelease : s.moves (.releaseTicket t) = [.vacate t ⟨.outbound, .elevated⟩,
      .board (t + 1) ⟨.outbound, .elevated⟩ (some .oldestFirst)] := by
    simp [moves, cellOf?, hs, holders_perform, h.holders, dispatchMoves, current_perform,
      active_perform, h.active, nextTurn, hasWaiters, hasWaitersIn, waiting_perform, h.waiting,
      PerCell.set, PerCell.get, contested, preferred?, oldestSide, oldestWaiter?, h.config,
      serveMoves, popWaiter?]
  refine ⟨?_, hwaiting, ?_, ?_⟩
  · rw [hrequest, begun_cons, cycle?_of_not_admitted rfl]
    rfl
  · rw [hrelease, begun_cons, cycle?_of_not_admitted rfl, begun_cons, cycle?_board,
      if_pos (by simp [hs, active_perform, h.active])]
    rfl
  · rw [step_eq_performAll, hrelease, hs]
    constructor
    case config => simp [h.config]
    case active => simp [active_perform, h.active]
    case current => simp [current_perform]
    case waiting => simp [waiting_perform, h.waiting, PerCell.set, PerCell.get]
    case holders => simp [holders_perform, h.holders]
    case nextTicket => simp [nextTicket_perform, h.nextTicket]

/-- Every round passes over ticket 2 for ticket 1, and serves neither. -/
theorem rounds (h : b.Crowded limit t) (n : Nat) :
    b.cycles (crowd t n) = List.replicate n ⟨.outbound, some .oldestFirst⟩ ∧
      ∀ s ∈ b.stages (crowd t n), s.waiting.get ⟨.inbound, .elevated⟩ = [2] := by
  induction n generalizing b t with
  | zero =>
    refine ⟨rfl, fun s hs => ?_⟩
    rw [List.mem_singleton.1 hs, h.waiting]
    rfl
  | succ n ih =>
    obtain ⟨hrequest, hwaiting, hrelease, hnext⟩ := h.round
    obtain ⟨hcycles, hstages⟩ := ih hnext
    rw [crowd]
    refine ⟨?_, ?_⟩
    · rw [cycles_cons, cycles_cons, hrequest, hrelease, hcycles]
      rfl
    · rw [stages, stages, List.forall_mem_cons, List.forall_mem_cons]
      refine ⟨?_, ?_, hstages⟩
      · rw [h.waiting]
        rfl
      · rw [hwaiting]
        rfl

end Crowded

/-- **No bound.**  With elevated callers on both sides, one older ticket is enough to pass over an
elevated one any number of times, whatever the streak limit. -/
theorem passed_over (limit n : Nat) : ∃ b ops, Bus.Reachable b ∧
    b.config = ⟨1, .oldestFirst, limit, false⟩ ∧ b.older .outbound 2 = [1] ∧
    (∀ s ∈ b.stages ops, 2 ∈ s.waiting.get ⟨.inbound, .elevated⟩) ∧
    (∀ k ∈ b.cycles ops, k.direction ≠ .inbound) ∧
    (b.cycles ops).countP (fun k => k.direction = .outbound) = n := by
  let b := ((Bus.new ⟨1, .oldestFirst, limit, false⟩).run [.request ⟨.outbound, .normal⟩,
    .request ⟨.outbound, .normal⟩, .request ⟨.inbound, .elevated⟩,
    .request ⟨.outbound, .elevated⟩, .releaseTicket 0]).2
  have hb : b.Crowded limit 3 := ⟨rfl, rfl, rfl, rfl, rfl, rfl⟩
  obtain ⟨hcycles, hstages⟩ := hb.rounds n
  refine ⟨b, crowd 3 n, ⟨rfl, _, rfl⟩, rfl, rfl, fun s hs => ?_, fun k hk => ?_, ?_⟩
  · rw [hstages s hs]
    exact List.mem_singleton_self _
  · rw [hcycles] at hk
    rw [List.eq_of_mem_replicate hk]
    exact nofun
  · rw [hcycles, List.countP_replicate]
    rfl

end Bus

end HalfDuplex

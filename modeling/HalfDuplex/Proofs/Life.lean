import HalfDuplex.Proofs.Overtaking

/-!
# The life of a ticket

Every number is given out once, to a request of some cell.  From then on its ticket waits in that
cell's queue, holds a slot in that cell, has given the slot back or has been withdrawn.  This file
follows one ticket from place to place through a whole run.

* `Place` : where a ticket can be.  `Place.Next` lists the ways from one place to another.
* `Bus.places` : the places to which the moves of a run take a ticket, in turn; `Bus.place` is the
  last of them.
* `Bus.At` : what a bus shows of a ticket at a place.
* `Bus.At.performAll` : legal moves take a ticket along the listed ways only, and the bus shows the
  place that it has come to.
* `Bus.issues_eq` : the tickets that the answers of a run issue are those of its moves.
* `Bus.places_run` : the life of every ticket in every run.
-/

namespace HalfDuplex

/-- Where a ticket is, and to which cell it belongs. -/
inductive Place where
  /-- The number has not been given out. -/
  | unissued
  | waiting (cell : Cell)
  | holding (cell : Cell)
  /-- The slot was given back. -/
  | released (cell : Cell)
  /-- The ticket left its queue without a slot. -/
  | withdrawn (cell : Cell)
  deriving DecidableEq, Repr

namespace Place

/-- The cell of a ticket that has been issued. -/
def cell? : Place → Option Cell
  | unissued => none
  | waiting c => some c
  | holding c => some c
  | released c => some c
  | withdrawn c => some c

/-- The ways from place to place.  A ticket stays in its cell, and nothing leads away from
`released` and `withdrawn`. -/
inductive Next : Place → Place → Prop where
  | queue {c : Cell} : Next unissued (waiting c)
  | arrive {c : Cell} : Next unissued (holding c)
  | board {c : Cell} : Next (waiting c) (holding c)
  | release {c : Cell} : Next (holding c) (released c)
  | withdraw {c : Cell} : Next (waiting c) (withdrawn c)

theorem getLastD_of_final {p q : Place} {l : List Place} (h : (p :: l).IsChain Next)
    (hq : ∀ r, ¬ q.Next r) (hmem : q ∈ l) : l.getLastD p = q := by
  induction l generalizing p with
  | nil => cases hmem
  | cons x l ih =>
    have hl : (x :: l).IsChain Next := (List.isChain_cons_cons.1 h).2
    rw [List.getLastD_cons]
    rcases List.mem_cons.1 hmem with rfl | hmem
    · cases hl with
      | singleton => rfl
      | cons_cons hr => exact absurd hr (hq _)
    · exact ih hl hmem

end Place

/-- The ticket that an operation issues, with the cell that was asked for. -/
def Op.issued? : Op → Answer → Option (Ticket × Cell)
  | .request c, .request answer => some (answer.ticket, c)
  | .tryRequest c, .tryRequest (some t) => some (t, c)
  | _, _ => none

namespace Bus

namespace Move

/-- The new place of ticket `t`, if the move takes it to one. -/
def place? (t : Ticket) : Move → Option Place
  | arrive u c => if u = t then some (.holding c) else none
  | enqueue u c => if u = t then some (.waiting c) else none
  | board u c _ => if u = t then some (.holding c) else none
  | collect _ => none
  | vacate u c => if u = t then some (.released c) else none
  | leave u c => if u = t then some (.withdrawn c) else none
  | refuse => none

/-- The ticket that the move issues, with its cell. -/
def issued? : Move → Option (Ticket × Cell)
  | arrive t c => some (t, c)
  | enqueue t c => some (t, c)
  | _ => none

end Move

/-- The places to which a run takes ticket `t`, in turn. -/
def places (b : Bus) (t : Ticket) (ops : List Op) : List Place :=
  (b.trace ops).filterMap (Move.place? t)

/-- The place of ticket `t` after a run that finds it unissued. -/
def place (b : Bus) (t : Ticket) (ops : List Op) : Place := (b.places t ops).getLastD .unissued

/-- The tickets that a run issues, with the cells that were asked for, as the answers tell. -/
def issues (b : Bus) (ops : List Op) : List (Ticket × Cell) :=
  (ops.zip (b.run ops).1).filterMap fun x => x.1.issued? x.2

/-- What a bus shows of ticket `t` at place `p`. -/
structure At (b : Bus) (t : Ticket) (p : Place) : Prop where
  issued : t < b.nextTicket ↔ p ≠ .unissued
  waiting : ∀ c, t ∈ b.waiting.get c ↔ p = .waiting c
  holding : ∀ c, (t, c) ∈ b.holders ↔ p = .holding c
  /-- Only a ticket that got a slot has a grant; it may have lost the slot again. -/
  granted : t ∈ b.granted → ∃ c, p = .holding c ∨ p = .released c

variable {b : Bus} {m : Move} {ms : List Move} {t : Ticket} {c : Cell} {p : Place}

/-! ### What one move does to a ticket -/

theorem TicketsFit.queue_nodup (h : b.TicketsFit) (c : Cell) : (b.waiting.get c).Nodup :=
  (h.sorted c).imp Nat.ne_of_lt

theorem mem_waiting_perform_iff (h : b.TicketsFit) (hm : b.Legal m) :
    t ∈ (b.perform m).waiting.get c ↔
      m.place? t = some (.waiting c) ∨ m.place? t = none ∧ t ∈ b.waiting.get c := by
  have hnew : ∀ c', b.nextTicket ∉ b.waiting.get c' :=
    fun c' hmem => Nat.lt_irrefl _ (h.waiting_lt hmem)
  rw [waiting_perform]
  cases hm with
  | arrive =>
    by_cases ht : b.nextTicket = t
    · subst ht
      simp [Move.place?, hnew]
    · simp [Move.place?, ht]
  | @enqueue c' =>
    simp only [PerCell.get_set, Move.place?]
    by_cases ht : b.nextTicket = t
    · subst ht
      by_cases hc : c = c'
      · simp [hc]
      · simp [hc, Ne.symm hc, hnew]
    · by_cases hc : c = c'
      · simp [hc, ht, Ne.symm ht]
      · simp [hc, ht]
  | @board u c' _ hf =>
    have htail : u ∉ (b.waiting.get c').tail :=
      fun hu => Nat.lt_irrefl _ (hf.lt_of_mem_tail (h.sorted c') hu)
    simp only [PerCell.get_set, Move.place?]
    by_cases ht : u = t
    · subst ht
      by_cases hc : c = c'
      · simp [hc, htail]
      · simpa [hc] using fun hu => hc (h.one_queue hu hf.mem)
    · by_cases hc : c = c'
      · subst hc
        rw [if_pos rfl, hf.head]
        simp [ht, Ne.symm ht]
      · simp [hc, ht]
  | collect => simp [Move.place?]
  | @vacate u c' _ hmem =>
    simp only [Move.place?]
    by_cases ht : u = t
    · subst ht
      simpa using fun hw => h.not_holding hw (List.mem_map_of_mem hmem)
    · simp [ht]
  | @leave u c' _ hmem =>
    simp only [PerCell.get_set, Move.place?]
    by_cases ht : u = t
    · subst ht
      by_cases hc : c = c'
      · simp [hc, (h.queue_nodup c').mem_erase_iff]
      · simpa [hc] using fun hu => hc (h.one_queue hu hmem)
    · by_cases hc : c = c'
      · simp [hc, ht, List.mem_erase_of_ne (Ne.symm ht)]
      · simp [hc, ht]
  | refuse => simp [Move.place?]

theorem mem_holders_perform_iff (h : b.TicketsFit) (hm : b.Legal m) :
    (t, c) ∈ (b.perform m).holders ↔
      m.place? t = some (.holding c) ∨ m.place? t = none ∧ (t, c) ∈ b.holders := by
  have hfst : ∀ {u c'}, (u, c') ∈ b.holders → u ∈ b.holders.map Prod.fst :=
    fun hmem => List.mem_map_of_mem (f := Prod.fst) hmem
  have hadm : ∀ {u c'}, m.admitted? = some (u, c') → (u, c) ∉ b.holders :=
    fun ha hmem => h.not_holding_of_admitted hm ha (hfst hmem)
  rw [holders_perform]
  cases hm with
  | @arrive c' =>
    by_cases ht : b.nextTicket = t
    · subst ht
      simp [Move.place?, hadm rfl, eq_comm]
    · simp [Move.place?, ht, Ne.symm ht]
  | enqueue =>
    by_cases ht : b.nextTicket = t
    · subst ht
      simpa [Move.place?] using fun hmem => Nat.lt_irrefl _ (h.holding_lt (hfst hmem))
    · simp [Move.place?, ht]
  | @board u c' =>
    by_cases ht : u = t
    · subst ht
      simp [Move.place?, hadm rfl, eq_comm]
    · simp [Move.place?, ht, Ne.symm ht]
  | collect => simp [Move.place?]
  | @vacate u c' =>
    by_cases ht : u = t
    · simp [Move.place?, ht]
    · simp [Move.place?, ht, Ne.symm ht]
  | @leave u c' _ hmem =>
    by_cases ht : u = t
    · subst ht
      simpa [Move.place?] using fun hh => h.not_holding hmem (hfst hh)
    · simp [Move.place?, ht]
  | refuse => simp [Move.place?]

/-- A legal move takes a new ticket to a queue or a slot, a waiting one to a slot or away, and a
holder away. -/
theorem place?_cases (hm : b.Legal m) {q : Place} (hq : m.place? t = some q) :
    (t = b.nextTicket ∧ ∃ c, m.issued? = some (t, c) ∧ (q = .waiting c ∨ q = .holding c)) ∨
      (∃ c, t ∈ b.waiting.get c ∧ (q = .holding c ∨ q = .withdrawn c)) ∨
      ∃ c, (t, c) ∈ b.holders ∧ q = .released c := by
  cases hm with
  | arrive =>
    simp only [Move.place?, Option.ite_none_right_eq_some, Option.some.injEq] at hq
    obtain ⟨rfl, rfl⟩ := hq
    exact Or.inl ⟨rfl, _, rfl, Or.inr rfl⟩
  | enqueue =>
    simp only [Move.place?, Option.ite_none_right_eq_some, Option.some.injEq] at hq
    obtain ⟨rfl, rfl⟩ := hq
    exact Or.inl ⟨rfl, _, rfl, Or.inl rfl⟩
  | board hf =>
    simp only [Move.place?, Option.ite_none_right_eq_some, Option.some.injEq] at hq
    obtain ⟨rfl, rfl⟩ := hq
    exact Or.inr (Or.inl ⟨_, hf.mem, Or.inl rfl⟩)
  | leave _ hmem =>
    simp only [Move.place?, Option.ite_none_right_eq_some, Option.some.injEq] at hq
    obtain ⟨rfl, rfl⟩ := hq
    exact Or.inr (Or.inl ⟨_, hmem, Or.inr rfl⟩)
  | vacate _ hmem =>
    simp only [Move.place?, Option.ite_none_right_eq_some, Option.some.injEq] at hq
    obtain ⟨rfl, rfl⟩ := hq
    exact Or.inr (Or.inr ⟨_, hmem, rfl⟩)
  | collect | refuse => cases hq

theorem lt_nextTicket_perform_iff (h : b.TicketsFit) (hm : b.Legal m) :
    t < (b.perform m).nextTicket ↔ (m.place? t).isSome ∨ t < b.nextTicket := by
  have hle := le_nextTicket_perform b m
  constructor
  · intro hlt
    rw [nextTicket_perform] at hlt
    cases hm with
    | arrive | enqueue =>
      rcases Nat.lt_succ_iff_lt_or_eq.1 hlt with hlt | rfl
      · exact Or.inr hlt
      · simp [Move.place?]
    | board | collect | vacate | leave | refuse => exact Or.inr hlt
  · rintro (hq | hlt)
    · obtain ⟨q, hq⟩ := Option.isSome_iff_exists.1 hq
      rcases place?_cases hm hq with ⟨rfl, c, hi, -⟩ | ⟨c, hw, -⟩ | ⟨c, hh, -⟩
      · rw [nextTicket_perform]
        cases m with
        | arrive | enqueue => exact Nat.lt_succ_self _
        | board | collect | vacate | leave | refuse => cases hi
      · exact Nat.lt_of_lt_of_le (h.waiting_lt hw) hle
      · exact Nat.lt_of_lt_of_le (h.holding_lt (List.mem_map_of_mem hh)) hle
    · exact Nat.lt_of_lt_of_le hlt hle

namespace At

theorem eq_unissued (hp : b.At b.nextTicket p) : p = .unissued :=
  not_not.1 fun hne => Nat.lt_irrefl _ (hp.issued.2 hne)

/-- A legal move takes a ticket along one of the listed ways. -/
theorem next (hp : b.At t p) (hm : b.Legal m) {q : Place} (hq : m.place? t = some q) :
    p.Next q := by
  rcases place?_cases hm hq with ⟨rfl, c, -, rfl | rfl⟩ | ⟨c, hw, rfl | rfl⟩ | ⟨c, hh, rfl⟩
  · rw [hp.eq_unissued]
    exact .queue
  · rw [hp.eq_unissued]
    exact .arrive
  · rw [(hp.waiting c).1 hw]
    exact .board
  · rw [(hp.waiting c).1 hw]
    exact .withdraw
  · rw [(hp.holding c).1 hh]
    exact .release

theorem cell (hp : b.At t p) (hm : b.Legal m) {q : Place} (hq : m.place? t = some q) {c : Cell}
    (hc : q.cell? = some c) : p.cell? = some c ∨ m.issued? = some (t, c) := by
  rcases place?_cases hm hq with ⟨-, c', hi, rfl | rfl⟩ | ⟨c', hw, rfl | rfl⟩ | ⟨c', hh, rfl⟩
  · cases hc
    exact Or.inr hi
  · cases hc
    exact Or.inr hi
  · rw [(hp.waiting c').1 hw]
    exact Or.inl hc
  · rw [(hp.waiting c').1 hw]
    exact Or.inl hc
  · rw [(hp.holding c').1 hh]
    exact Or.inl hc

/-- After a legal move the bus shows the place to which the move took the ticket, or the place
where it was before. -/
theorem perform (hp : b.At t p) (h : b.TicketsFit) (hm : b.Legal m) :
    (b.perform m).At t ((m.place? t).getD p) where
  issued := by
    rw [lt_nextTicket_perform_iff h hm, hp.issued]
    cases hq : m.place? t with
    | none => simp
    | some q => rcases hp.next hm hq <;> simp
  waiting c := by
    rw [mem_waiting_perform_iff h hm, hp.waiting, Option.getD_eq_iff]
  holding c := by
    rw [mem_holders_perform_iff h hm, hp.holding, Option.getD_eq_iff]
  granted hg := by
    rw [granted_perform] at hg
    cases hm with
    | @board u c =>
      by_cases ht : u = t
      · exact ⟨c, Or.inl (by simp [Move.place?, ht])⟩
      · have hg : t ∈ b.granted := by simpa [Ne.symm ht] using hg
        simpa [Move.place?, ht] using hp.granted hg
    | @vacate u c =>
      by_cases ht : u = t
      · exact ⟨c, Or.inr (by simp [Move.place?, ht])⟩
      · simpa [Move.place?, ht] using hp.granted hg
    | collect => exact hp.granted (List.mem_filter.1 hg).1
    | refuse => exact hp.granted hg
    -- a ticket that is new or waits has no grant
    | arrive | enqueue =>
      have ht : b.nextTicket ≠ t := by
        rintro rfl
        exact Nat.lt_irrefl _ (h.granted_lt hg)
      simpa [Move.place?, ht] using hp.granted hg
    | @leave u c _ hmem =>
      have ht : u ≠ t := by
        rintro rfl
        exact h.not_granted hmem hg
      simpa [Move.place?, ht] using hp.granted hg

/-- **Legal moves take a ticket along the listed ways only**, and the bus shows the last place. -/
theorem performAll (hp : b.At t p) (h : b.Sound) (hms : ∀ m ∈ b.moments ms, m.Legal) :
    (p :: ms.filterMap (Move.place? t)).IsChain Place.Next ∧
      (b.performAll ms).At t ((ms.filterMap (Move.place? t)).getLastD p) ∧
      ∀ c, ((ms.filterMap (Move.place? t)).getLastD p).cell? = some c →
        p.cell? = some c ∨ (t, c) ∈ ms.filterMap Move.issued? := by
  induction ms generalizing b p with
  | nil => exact ⟨.singleton p, hp, fun c hc => Or.inl hc⟩
  | cons m ms ih =>
    rw [moments_cons, List.forall_mem_cons] at hms
    obtain ⟨hm, hms⟩ := hms
    have hp' := hp.perform h.tickets hm
    obtain ⟨hchain, hat, hcell⟩ := ih hp' (h.perform hm) hms
    have hissued : ∀ x, x ∈ ms.filterMap Move.issued? → x ∈ (m :: ms).filterMap Move.issued? :=
      fun x hx => ((List.sublist_cons_self m ms).filterMap _).mem hx
    cases hq : m.place? t with
    | none =>
      rw [hq] at hchain hat hcell
      rw [List.filterMap_cons_none hq]
      exact ⟨hchain, hat, fun c hc => (hcell c hc).imp_right (hissued _)⟩
    | some q =>
      rw [hq] at hchain hat hcell
      rw [List.filterMap_cons_some hq, List.getLastD_cons]
      refine ⟨List.isChain_cons_cons.2 ⟨hp.next hm hq, hchain⟩, hat, fun c hc => ?_⟩
      rcases hcell c hc with hc | hmem
      · refine (hp.cell hm hq hc).imp_right fun hi => ?_
        rw [List.filterMap_cons_some hi]
        exact List.mem_cons_self
      · exact Or.inr (hissued _ hmem)

theorem new (config : Config) (t : Ticket) : (Bus.new config).At t .unissued where
  issued := by simp [Bus.new]
  waiting c := by simp [Bus.new]
  holding c := by simp [Bus.new]
  granted hg := by cases hg

end At

/-! ### The tickets that a run issues -/

theorem issued?_step (b : Bus) (op : Op) :
    (op.issued? (b.step op).1).toList = (b.moves op).filterMap Move.issued? := by
  have hnone : ∀ s : Bus, s.dispatchMoves.filterMap Move.issued? = [] := by
    intro s
    refine List.filterMap_eq_nil_iff.2 fun m hm => ?_
    obtain ⟨t, c, why, rfl⟩ := board_of_mem_dispatchMoves hm
    rfl
  cases op with
  | request c =>
    simp only [step, request, moves]
    split_ifs <;> rfl
  | tryRequest c =>
    simp only [step, tryRequest, moves]
    split_ifs <;> rfl
  | takeGrant t =>
    rw [moves]
    split_ifs <;> rfl
  | release c =>
    rw [moves]
    cases b.oldestHolder? c with
    | none => rfl
    | some t => exact (hnone _).symm
  | releaseTicket t =>
    rw [moves]
    cases b.cellOf? t with
    | none => rfl
    | some c => exact (hnone _).symm
  | withdraw t =>
    rw [moves]
    cases b.queueOf? t with
    | none => rfl
    | some c => exact (hnone _).symm

/-- The answers of a run tell which tickets its moves issue. -/
theorem issues_eq (b : Bus) (ops : List Op) :
    b.issues ops = (b.trace ops).filterMap Move.issued? := by
  induction ops generalizing b with
  | nil => rfl
  | cons op ops ih =>
    rw [trace, List.filterMap_append, ← issued?_step, ← ih]
    cases h : op.issued? (b.step op).1 with
    | none => exact List.filterMap_cons_none h
    | some x => exact List.filterMap_cons_some h

/-- Legal moves issue the next numbers, one after the other. -/
theorem range_issued (hms : ∀ m ∈ b.moments ms, m.Legal) :
    List.range b.nextTicket ++ (ms.filterMap Move.issued?).map Prod.fst =
      List.range (b.performAll ms).nextTicket := by
  induction ms generalizing b with
  | nil => exact List.append_nil _
  | cons m ms ih =>
    rw [moments_cons, List.forall_mem_cons] at hms
    have hm : b.Legal m := hms.1
    have hrest := ih hms.2
    rw [nextTicket_perform] at hrest
    rw [performAll_cons, ← hrest]
    cases hm with
    | arrive | enqueue =>
      simp only [List.range_succ, List.append_assoc, List.singleton_append]
      rfl
    | board | collect | vacate | leave | refuse => rfl

theorem nodup_admissions (h : b.Sound) (hms : ∀ m ∈ b.moments ms, m.Legal) :
    ((ms.filterMap Move.admitted?).map Prod.fst).Nodup := by
  induction ms generalizing b with
  | nil => exact List.nodup_nil
  | cons m ms ih =>
    rw [moments_cons, List.forall_mem_cons] at hms
    obtain ⟨hm, hms⟩ := hms
    have hrest := ih (h.perform hm) hms
    cases ha : m.admitted? with
    | none => rwa [List.filterMap_cons_none ha]
    | some x =>
      obtain ⟨t, c⟩ := x
      rw [List.filterMap_cons_some ha]
      refine List.nodup_cons.2 ⟨fun hmem => ?_, hrest⟩
      obtain ⟨⟨u, c'⟩, hu, rfl⟩ := List.mem_map.1 hmem
      -- later admissions come from the queues that are left now, or from tickets issued since
      rcases waiting_or_new_of_admitted (h.perform hm) hms hu with hw | hle
      · exact h.tickets.not_waiting_of_admitted hm ha hw
      · exact Nat.not_lt.2 hle (h.tickets.lt_nextTicket_of_admitted hm ha)

/-! ### Calls with a ticket -/

theorem releaseTicket_ok_iff :
    (∃ woken, (b.releaseTicket t).1 = .ok woken) ↔ ∃ c, (t, c) ∈ b.holders := by
  unfold releaseTicket
  cases h : b.cellOf? t with
  | none =>
    simp [cellOf?_eq_none_iff.1 h]
  | some c => simpa using ⟨c, mem_holders_of_cellOf h⟩

theorem withdraw_removed_iff :
    (∃ woken, (b.withdraw t).1 = .removed woken) ↔ ∃ c, t ∈ b.waiting.get c := by
  unfold withdraw
  cases h : b.queueOf? t with
  | none =>
    simp only [queueOf?_eq_none_iff.1 h, exists_false, iff_false, not_exists]
    intro woken
    split_ifs <;> exact nofun
  | some c => simpa using ⟨c, mem_waiting_of_queueOf h⟩

/-! ### Runs -/

/-- **The life of a ticket.**  A run gives out the numbers from zero on without gaps.  Every ticket
goes from place to place along the ways that `Place.Next` lists, and the bus shows it at its last
place and nowhere else.  It stays in the cell that its request asked for.  So it is admitted at most
once, and it can be released only while it holds a slot and withdrawn only while it waits. -/
theorem places_run {config : Config} (hc : config.valid = true) (ops : List Op) :
    let b := Bus.new config
    let s := (b.run ops).2
    (b.issues ops).map Prod.fst = List.range s.nextTicket ∧
      ((b.run ops).1.flatMap Answer.admitted).Nodup ∧
      (∀ c, (s.waiting.get c).Nodup) ∧ (s.holders.map Prod.fst).Nodup ∧
      ∀ t, (Place.unissued :: b.places t ops).IsChain Place.Next ∧
        s.At t (b.place t ops) ∧
        (∀ c, (b.place t ops).cell? = some c → (t, c) ∈ b.issues ops) ∧
        (∀ q ∈ b.places t ops, (∀ r, ¬ q.Next r) → b.place t ops = q) ∧
        ((∃ woken, (s.releaseTicket t).1 = .ok woken) ↔ ∃ c, b.place t ops = .holding c) ∧
        ((∃ woken, (s.withdraw t).1 = .removed woken) ↔ ∃ c, b.place t ops = .waiting c) := by
  intro b s
  have hsound : b.Sound := sound_new hc
  have hms : ∀ m ∈ b.history ops, m.Legal := (legal_trace hsound (settled_new config) ops).1
  have hs : s = b.performAll (b.trace ops) := run_eq_performAll b ops
  have hfit : s.TicketsFit := hs ▸ (hsound.performAll hms).tickets
  refine ⟨?_, ?_, hfit.queue_nodup, hfit.holders_nodup, fun t => ?_⟩
  · rw [issues_eq, hs, ← range_issued hms]
    rfl
  · rw [admitted_run, ← List.map_filterMap]
    exact nodup_admissions hsound hms
  · obtain ⟨hchain, hat, hcell⟩ := (At.new config t).performAll hsound hms
    rw [← run_eq_performAll] at hat
    refine ⟨hchain, hat, fun c hc => ?_, ?_, ?_, ?_⟩
    · rw [issues_eq]
      exact (hcell c hc).resolve_left nofun
    · exact fun q hq hfinal => Place.getLastD_of_final hchain hfinal hq
    · rw [releaseTicket_ok_iff]
      exact exists_congr hat.holding
    · rw [withdraw_removed_iff]
      exact exists_congr hat.waiting

/-- A bus with two slots on which tickets come to all places. -/
theorem places_run_two_slots :
    (⟨2, .alternate, 1, false⟩ : Config).valid = true ∧
      let b := Bus.new ⟨2, .alternate, 1, false⟩
      let ops : List Op := [.request ⟨.outbound, .normal⟩, .tryRequest ⟨.outbound, .normal⟩,
        .request ⟨.inbound, .elevated⟩, .request ⟨.outbound, .normal⟩,
        .request ⟨.inbound, .normal⟩, .withdraw 4, .releaseTicket 0, .releaseTicket 0]
      b.places 0 ops = [.holding ⟨.outbound, .normal⟩, .released ⟨.outbound, .normal⟩] ∧
        b.places 3 ops = [.waiting ⟨.outbound, .normal⟩, .holding ⟨.outbound, .normal⟩] ∧
        b.place 4 ops = .withdrawn ⟨.inbound, .normal⟩ ∧ b.place 5 ops = .unissued ∧
        (b.run ops).2.At 2 (.waiting ⟨.inbound, .elevated⟩) :=
  ⟨by decide, by decide, by decide, by decide, by decide,
    ((places_run (by decide) _).2.2.2.2 2).2.1⟩

end Bus

end HalfDuplex

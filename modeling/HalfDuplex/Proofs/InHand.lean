import HalfDuplex.Proofs.Crowd

/-!
# Slots in hand

A slot that a waiter was granted is held, but nobody has it in hand until its caller picks the grant
up.  The slots in hand are the holders whose tickets are not pending.

* `Bus.holding_step`, `Bus.holding_of_woken`, `Bus.holding_of_arrived` : what an operation leaves to
  a holder, to a waiter that it lets in, and to a newcomer that it admits.
* `Bus.inHand` : the slots that callers have in hand.
* `Bus.stays_inHand`, `Bus.inHand_or_new` : a slot stays in hand until it is given back, and comes
  into a hand by an arrival or by a grant that is picked up.
* `Bus.inHand_arrived`, `Bus.inHand_collected`, `Bus.inHand_released`, `Bus.inHand_still` : the
  balance of the slots in hand.
* `Bus.Owed`, `Bus.Owed.step` : a request that waits gets its slot before its grant, and keeps it.

What an operation sets in motion among the waiters makes no difference to the slots in hand: who is
woken was pending and stays so.
-/

namespace HalfDuplex

namespace Bus

/-- The slots that callers have in hand: their tickets neither wait nor have a grant. -/
def inHand (b : Bus) : List (Ticket × Cell) := b.holders.filter fun x => x.1 ∉ b.pending

/-- A request is owed a slot: it waits in the queue of its cell, or has a grant that stands for a
slot. -/
def Owed (b : Bus) (x : Ticket × Cell) : Prop :=
  x.1 ∈ b.waiting.get x.2 ∨ x.1 ∈ b.granted ∧ x ∈ b.holders

variable {b : Bus} {op : Op} {t : Ticket} {c : Cell} {x : Ticket × Cell}

theorem vacated_cons_dispatchMoves (b : Bus) (t : Ticket) (c : Cell) :
    (Move.vacate t c :: b.dispatchMoves).filterMap Move.vacated? = [(t, c)] :=
  congrArg ((t, c) :: ·) (filterMap_dispatchMoves_eq_nil (fun _ _ _ => rfl) b)

theorem held_of_vacated (hx : x ∈ (b.moves op).filterMap Move.vacated?) :
    x ∈ b.holders ∧ (op = .releaseTicket x.1 ∨ op = .release x.2) := by
  cases op with
  | request =>
    rw [moves] at hx
    split_ifs at hx <;> cases hx
  | tryRequest =>
    rw [moves] at hx
    split_ifs at hx <;> cases hx
  | takeGrant =>
    rw [moves] at hx
    split_ifs at hx <;> cases hx
  | release d =>
    rw [moves] at hx
    cases ho : b.oldestHolder? d with
    | none =>
      rw [ho] at hx
      cases hx
    | some u =>
      simp only [ho, vacated_cons_dispatchMoves, List.mem_singleton] at hx
      rw [hx]
      exact ⟨mem_holders_of_oldest ho, Or.inr rfl⟩
  | releaseTicket u =>
    rw [moves] at hx
    cases ho : b.cellOf? u with
    | none =>
      rw [ho] at hx
      cases hx
    | some d =>
      simp only [ho, vacated_cons_dispatchMoves, List.mem_singleton] at hx
      rw [hx]
      exact ⟨mem_holders_of_cellOf ho, Or.inl rfl⟩
  | withdraw u =>
    rw [moves] at hx
    cases ho : b.queueOf? u with
    | none =>
      rw [ho] at hx
      cases hx
    | some d =>
      have hnone : (Move.leave u d :: (b.perform (.leave u d)).dispatchMoves).filterMap
          Move.vacated? = [] := filterMap_dispatchMoves_eq_nil (fun _ _ _ => rfl) _
      simp only [ho, hnone] at hx
      cases hx

/-- Who holds a slot or takes one in an operation holds it afterwards, unless the operation gives it
back. -/
theorem holding_or_vacated (h : b.Reachable)
    (hx : x ∈ b.holders ++ (b.moves op).filterMap Move.admitted?) :
    x ∈ (b.step op).2.holders ∨ x ∈ (b.moves op).filterMap Move.vacated? := by
  exact (List.mem_append.1 ((holders_step h op).subset hx)).symm

theorem holding_step (h : b.Reachable) (op : Op) (hx : x ∈ b.holders)
    (hticket : op ≠ .releaseTicket x.1) (hcell : ∀ c, op ≠ .release c) :
    x ∈ (b.step op).2.holders := by
  refine (holding_or_vacated h (List.mem_append_left _ hx)).resolve_right fun hvacated => ?_
  rcases (held_of_vacated hvacated).2 with hop | hop
  · exact hticket hop
  · exact hcell _ hop

theorem holding_of_arrived (h : b.Reachable) (ha : op.arrived? (b.step op).1 = some (t, c)) :
    (t, c) ∈ (b.step op).2.holders := by
  have hmem : (t, c) ∈ (b.moves op).filterMap Move.admitted? := by
    have harrived : (t, c) ∈ (b.moves op).filterMap Move.arrived? := by
      rw [← (tells_step b op).arrived, ha]
      exact List.mem_cons_self
    obtain ⟨m, hm, hmt⟩ := List.mem_filterMap.1 harrived
    refine List.mem_filterMap.2 ⟨m, hm, ?_⟩
    cases m with
    | arrive => exact hmt
    | enqueue | board | collect | vacate | leave | refuse => cases hmt
  refine (holding_or_vacated h (List.mem_append_right _ hmem)).resolve_right fun hvacated => ?_
  -- the ticket is new, so there was nothing to give back
  have hheld := List.mem_map_of_mem (f := Prod.fst) (held_of_vacated hvacated).1
  have hlt := h.sound.tickets.holding_lt hheld
  rw [arrived_eq_next ha] at hlt
  exact Nat.lt_irrefl _ hlt

theorem holding_of_woken (h : b.Reachable) (ht : t ∈ (b.step op).1.woken)
    (hw : t ∈ b.waiting.get c) : (t, c) ∈ (b.step op).2.holders := by
  have hgrant := granted_of_woken h ht
  have hqueue := List.mem_append_left (op.joined? (b.step op).1).toList (mem_queue.2 hw)
  have hmem : (t, c) ∈ (b.moves op).filterMap Move.admitted? := by
    rcases List.mem_append.1 ((waiters_step h op).subset hqueue) with hdep | hstays
    · obtain ⟨m, hm, hmt⟩ := List.mem_filterMap.1 hdep
      refine List.mem_filterMap.2 ⟨m, hm, ?_⟩
      cases m with
      | board => exact hmt
      | leave u d =>
        cases hmt
        -- who leaves is dismissed and has no grant afterwards
        have hgone : t ∈ (op.withdrawn? (b.step op).1).toList := by
          rw [(tells_step b op).withdrawn]
          exact List.mem_filterMap.2 ⟨_, hm, rfl⟩
        have hd := dismissed_of_withdrawn (Option.mem_toList.1 hgone)
        exact absurd (List.mem_append_right _ hgrant) (pending_of_dismissed h hd).2
      | arrive | enqueue | collect | vacate | refuse => cases hmt
    · exact absurd hgrant ((h.step op).sound.tickets.not_granted (mem_queue.1 hstays))
  refine (holding_or_vacated h (List.mem_append_right _ hmem)).resolve_right fun hvacated => ?_
  exact h.sound.tickets.not_holding hw (List.mem_map_of_mem (held_of_vacated hvacated).1)

theorem vacated_of_held (h : b.TicketsFit) (hx : (t, c) ∈ b.holders) :
    (b.moves (.releaseTicket t)).filterMap Move.vacated? = [(t, c)] := by
  simp only [moves, h.cellOf?_eq_some_iff.2 hx, vacated_cons_dispatchMoves]

theorem not_holding_of_released (h : b.Reachable) (hx : (t, c) ∈ b.holders) :
    t ∉ (b.step (.releaseTicket t)).2.holders.map Prod.fst := by
  have htickets := h.sound.tickets
  have hlaw := (holders_step h (.releaseTicket t)).map Prod.fst
  rw [vacated_of_held htickets hx] at hlaw
  -- who is admitted in a release has waited, so it is not the ticket itself
  have hadmitted : t ∉ ((b.moves (.releaseTicket t)).filterMap Move.admitted?).map Prod.fst := by
    intro hmem
    have hsplit := (admitted_perm _).subset hmem
    rw [← woken_step, ← (tells_step b _).arrived] at hsplit
    rcases List.mem_append.1 hsplit with harrived | hwoken
    · cases harrived
    · obtain ⟨c', hw⟩ := waited_of_departed h (Or.inl hwoken)
      exact htickets.not_holding hw (List.mem_map_of_mem hx)
  have hcount := hlaw.count_eq t
  have hone := List.nodup_iff_count_le_one.1 htickets.holders_nodup t
  rw [List.map_append, List.count_append, List.count_eq_zero.2 hadmitted, List.map_append,
    List.count_append, List.map_singleton, List.count_singleton_self] at hcount
  exact List.count_eq_zero.1 (by omega)

/-! ### The balance of the slots in hand -/

theorem mem_inHand : x ∈ b.inHand ↔ x ∈ b.holders ∧ x.1 ∉ b.pending := by
  simp [inHand]

theorem inHand_nodup (h : b.Reachable) : b.inHand.Nodup :=
  (List.Nodup.of_map _ h.sound.tickets.holders_nodup).filter _

/-- Who has a slot in hand keeps it until it is given back. -/
theorem stays_inHand (h : b.Reachable) (hx : x ∈ b.inHand) (hticket : op ≠ .releaseTicket x.1)
    (hcell : ∀ c, op ≠ .release c) : x ∈ (b.step op).2.inHand := by
  obtain ⟨hheld, hgone⟩ := mem_inHand.1 hx
  have hholds := holding_step h op hheld hticket hcell
  refine mem_inHand.2 ⟨hholds, fun hpending => ?_⟩
  rcases pending_or_joined h hpending with hold | ⟨c, hj⟩
  · exact hgone hold
  -- who has just joined a queue holds no slot
  · have hwaits := (waiting_of_joined h hj).2
    exact (h.step op).sound.tickets.not_holding hwaits (List.mem_map_of_mem hholds)

/-- A slot comes into a hand by an arrival, or by a grant that is picked up. -/
theorem inHand_or_new (h : b.Reachable) (hx : x ∈ (b.step op).2.inHand) :
    x ∈ b.inHand ∨ op.arrived? (b.step op).1 = some x ∨
      x ∈ b.holders ∧ op.collected? (b.step op).1 = some x.1 := by
  obtain ⟨hheld, hgone⟩ := mem_inHand.1 hx
  rcases held_or_new h hheld with hold | harrived | hwoken
  · by_cases hpending : x.1 ∈ b.pending
    -- who is pending no longer was dismissed, and who withdraws holds no slot
    · have hd : x.1 ∈ (op.dismissed? (b.step op).1).toList :=
        (List.mem_append.1 ((pending_step h op).subset
          (List.mem_append_left _ hpending))).resolve_right hgone
      rw [dismissed_toList, List.mem_append, Option.mem_toList, Option.mem_toList] at hd
      rcases hd with hw | hc
      · exact absurd (List.mem_map_of_mem hheld) (not_holding_of_withdrawn h hw)
      · exact Or.inr (Or.inr ⟨hold, hc⟩)
    · exact Or.inl (mem_inHand.2 ⟨hold, hpending⟩)
  · exact Or.inr (Or.inl harrived)
  · exact absurd (List.mem_append_right _ (granted_of_woken h hwoken)) hgone

theorem inHand_arrived (h : b.Reachable) (ha : op.arrived? (b.step op).1 = some x) :
    (b.step op).2.inHand.Perm (x :: b.inHand) := by
  obtain ⟨-, hd⟩ := told_of_arrived ha
  have hnew : x ∉ b.inHand := by
    intro hx
    have hlt := h.sound.tickets.holding_lt (List.mem_map_of_mem (mem_inHand.1 hx).1)
    rw [arrived_eq_next ha] at hlt
    exact Nat.lt_irrefl _ hlt
  refine (List.perm_ext_iff_of_nodup (inHand_nodup (h.step op))
    (List.nodup_cons.2 ⟨hnew, inHand_nodup h⟩)).2 fun y => ?_
  rw [List.mem_cons]
  constructor
  · intro hy
    rcases inHand_or_new h hy with hold | harrived | ⟨-, hc⟩
    · exact Or.inr hold
    · rw [ha] at harrived
      exact Or.inl (Option.some.inj harrived).symm
    · rw [Op.dismissed?, Option.or_eq_none_iff] at hd
      rw [hd.2] at hc
      cases hc
  · rintro (rfl | hy)
    · exact mem_inHand.2 ⟨holding_of_arrived h ha, not_pending_of_arrived h ha⟩
    · refine stays_inHand h hy ?_ fun c => ?_
      · rintro rfl
        cases ha
      · rintro rfl
        cases ha

theorem collected_of_granted (ht : t ∈ b.granted) :
    Op.collected? (.takeGrant t) (b.step (.takeGrant t)).1 = some t :=
  (Gate.attend_collect (g := { bus := b }) ht).1

theorem inHand_collected (h : b.Reachable) (hx : x ∈ b.holders) (hg : x.1 ∈ b.granted) :
    (b.step (.takeGrant x.1)).2.inHand.Perm (x :: b.inHand) := by
  have hd := pending_of_dismissed h (Crowd.dismissed_of_granted hg)
  have hnew : x ∉ b.inHand := fun hx' => (mem_inHand.1 hx').2 hd.1
  refine (List.perm_ext_iff_of_nodup (inHand_nodup (h.step _))
    (List.nodup_cons.2 ⟨hnew, inHand_nodup h⟩)).2 fun y => ?_
  rw [List.mem_cons]
  constructor
  · intro hy
    rcases inHand_or_new h hy with hold | harrived | ⟨hheld, hc⟩
    · exact Or.inr hold
    · cases harrived
    -- only the grant of this ticket was picked up, and it holds one slot
    · rw [collected_of_granted hg] at hc
      have hsame := List.inj_on_of_nodup_map h.sound.tickets.holders_nodup hheld hx
      exact Or.inl (hsame (Option.some.inj hc).symm)
  · rintro (rfl | hy)
    · exact mem_inHand.2 ⟨holding_step h _ hx nofun nofun, hd.2⟩
    · exact stays_inHand h hy nofun nofun

theorem inHand_released (h : b.Reachable) (hx : x ∈ b.inHand) :
    b.inHand.Perm (x :: (b.step (.releaseTicket x.1)).2.inHand) := by
  have hheld := (mem_inHand.1 hx).1
  have hgone : ∀ y ∈ (b.step (.releaseTicket x.1)).2.inHand, y.1 ≠ x.1 := by
    intro y hy hyx
    have hmem := List.mem_map_of_mem (f := Prod.fst) (mem_inHand.1 hy).1
    rw [hyx] at hmem
    exact not_holding_of_released h hheld hmem
  have hnew : x ∉ (b.step (.releaseTicket x.1)).2.inHand := fun hx' => hgone x hx' rfl
  refine (List.perm_ext_iff_of_nodup (inHand_nodup h)
    (List.nodup_cons.2 ⟨hnew, inHand_nodup (h.step _)⟩)).2 fun y => ?_
  rw [List.mem_cons]
  constructor
  · intro hy
    by_cases hyx : y.1 = x.1
    · have hsame := List.inj_on_of_nodup_map h.sound.tickets.holders_nodup
        (mem_inHand.1 hy).1 hheld
      exact Or.inl (hsame hyx)
    · refine Or.inr (stays_inHand h hy ?_ nofun)
      rw [ne_eq, Op.releaseTicket.injEq]
      exact fun hxy => hyx hxy.symm
  · rintro (rfl | hy)
    · exact hx
    · rcases inHand_or_new h hy with hold | harrived | ⟨-, hc⟩
      · exact hold
      · cases harrived
      · cases hc

theorem inHand_still (h : b.Reachable) (op : Op)
    (hticket : ∀ x ∈ b.inHand, op ≠ .releaseTicket x.1) (hcell : ∀ c, op ≠ .release c)
    (harrived : op.arrived? (b.step op).1 = none)
    (hcollected : ∀ x ∈ b.holders, op.collected? (b.step op).1 ≠ some x.1) :
    (b.step op).2.inHand.Perm b.inHand := by
  refine (List.perm_ext_iff_of_nodup (inHand_nodup (h.step op)) (inHand_nodup h)).2 fun y => ?_
  constructor
  · intro hy
    rcases inHand_or_new h hy with hold | ha | ⟨hheld, hc⟩
    · exact hold
    · rw [harrived] at ha
      cases ha
    · exact absurd hc (hcollected y hheld)
  · exact fun hy => stays_inHand h hy (hticket y hy) hcell

theorem of_nobody_pending (hnone : b.pending = []) :
    b.granted = [] ∧ (∀ c, b.waiting.get c = []) ∧ b.inHand = b.holders := by
  obtain ⟨hqueue, hgranted⟩ := List.append_eq_nil_iff.1 hnone
  refine ⟨hgranted, fun c => ?_, ?_⟩
  · refine List.eq_nil_iff_forall_not_mem.2 fun t ht => ?_
    have hmem := List.mem_map_of_mem (f := Prod.fst) (mem_queue.2 ht)
    rw [hqueue] at hmem
    cases hmem
  · rw [inHand, hnone]
    exact List.filter_eq_self.2 fun _ _ => rfl

/-! ### Slots that are owed -/

/-- Who is owed a slot stays so until its caller is dismissed, if nobody else gives the slot back.
-/
theorem Owed.step (hx : b.Owed x) (h : b.Reachable) (hd : op.dismissed? (b.step op).1 ≠ some x.1)
    (hticket : op ≠ .releaseTicket x.1) (hcell : ∀ c, op ≠ .release c) :
    (b.step op).2.Owed x := by
  refine (pending_or_dismissed h (hx.imp_right And.left) hd).imp_right fun hgrant => ⟨hgrant, ?_⟩
  rcases hx with hwaits | ⟨-, hheld⟩
  -- who waited has been woken
  · have hnew := (granted_step h op).symm.subset (List.mem_append_right _ hgrant)
    have hwoken := (List.mem_append.1 hnew).resolve_left (h.sound.tickets.not_granted hwaits)
    exact holding_of_woken h hwoken hwaits
  · exact holding_step h op hheld hticket hcell

end Bus

end HalfDuplex

import HalfDuplex.Proofs.Consistent
import HalfDuplex.Proofs.InHand

/-!
# Breaking off leaves nothing behind

After a caller broke off inside a stretch, the sleepers of the poisoned gate break off one by one as
they wake, in whatever order they do.  A sleeper that breaks off withdraws its request, or hands
back the slot that it was granted meanwhile; either may let in other sleepers, which break off
later.

* `Bus.abandonment` : what breaking off comes to on the bus.
* `Bus.pending_abandonment`, `Bus.inHand_abandonment` : it takes away its own ticket and leaves the
  slots in hand alone.
* `Gate.Listed` : the sleepers are those with a pending ticket.  A poisoned gate is no exception.
* `Gate.Listed.abandon`, `Gate.Listed.abandonAll` : one sleeper breaks off, and all do.
* `Gate.abandoned_run` : in the end nobody sleeps, nothing is queued or granted, and only the slots
  are held that were in hand.

Whom a sleeper lets in by breaking off depends on the order.  It makes no difference in the end,
because who is let in stays pending.
-/

namespace HalfDuplex

namespace Bus

/-- What a caller of ticket `t` that breaks off makes of it: a slot that was granted is picked up
and handed back, otherwise the ticket leaves its queue. -/
def abandonment (b : Bus) (t : Ticket) : List Op :=
  if t ∈ b.granted then [.takeGrant t, .releaseTicket t] else [.withdraw t]

variable {b : Bus} {t : Ticket}

theorem withdrawn_of_pending (ht : t ∈ b.pending) (hgrant : t ∉ b.granted) :
    Op.withdrawn? (.withdraw t) (b.step (.withdraw t)).1 = some t := by
  obtain ⟨woken, hremoved⟩ :=
    withdraw_removed_iff.2 ((mem_pending.1 ht).resolve_right hgrant)
  simp only [step, hremoved]
  rfl

theorem withdraw_of_granted (h : b.Reachable) (hgrant : t ∈ b.granted) :
    b.withdraw t = (.alreadyAdmitted, b) := by
  have hnone : b.queueOf? t = none := by
    refine Option.eq_none_iff_forall_ne_some.2 fun c hc => ?_
    exact h.sound.tickets.not_granted (mem_waiting_of_queueOf hc) hgrant
  simp only [withdraw, hnone, if_pos hgrant]

theorem pending_abandonment (h : b.Reachable) (ht : t ∈ b.pending) :
    b.pending.Perm (t :: (b.run (b.abandonment t)).2.pending) := by
  unfold abandonment
  split_ifs with hgrant
  · have htake := pending_dismissed h (Crowd.dismissed_of_granted hgrant)
    exact htake.trans ((pending_still (h.step _) (.releaseTicket t) rfl rfl).cons t)
  · exact pending_dismissed h (dismissed_of_withdrawn (withdrawn_of_pending ht hgrant))

theorem inHand_abandonment (h : b.Reachable) (t : Ticket) :
    (b.run (b.abandonment t)).2.inHand.Perm b.inHand := by
  unfold abandonment
  split_ifs with hgrant
  · have hreach := h.step (.takeGrant t)
    by_cases hheld : ∃ c, (t, c) ∈ b.holders
    -- the slot comes into the hand of the caller, and goes
    · obtain ⟨c, hc⟩ := hheld
      have htake := inHand_collected h hc hgrant
      have hrelease : (b.step (.takeGrant t)).2.inHand.Perm
          ((t, c) :: (b.run [.takeGrant t, .releaseTicket t]).2.inHand) :=
        inHand_released hreach (htake.symm.subset List.mem_cons_self)
      exact (hrelease.symm.trans htake).cons_inv
    -- the slot was given back before its grant was picked up
    · have hnone : ∀ x ∈ b.holders, x.1 ≠ t := by
        rintro ⟨u, c⟩ hx rfl
        exact hheld ⟨c, hx⟩
      have htake : (b.step (.takeGrant t)).2.inHand.Perm b.inHand := by
        refine inHand_still h (.takeGrant t) nofun nofun rfl fun x hx hc => ?_
        rw [collected_of_granted hgrant] at hc
        exact hnone x hx (Option.some.inj hc).symm
      refine (inHand_still hreach (.releaseTicket t) (fun x hx hop => ?_) nofun rfl nofun).trans
        htake
      exact hnone x (mem_inHand.1 hx).1 (Op.releaseTicket.inj hop).symm
  · exact inHand_still h (.withdraw t) nofun nofun rfl nofun

end Bus

namespace Gate

/-- The sleepers at the gate are those with a pending ticket, and only sleepers are called. -/
structure Listed (g : Gate) : Prop where
  reachable : g.bus.Reachable
  parked : g.parked.Perm g.bus.pending
  called : g.called ⊆ g.parked

variable {g : Gate} {t : Ticket}

theorem Tidy.listed (h : g.Tidy) : g.Listed where
  reachable := h.reachable
  parked := h.parked
  called := by
    intro t ht
    rw [h.mem_called] at ht
    exact h.mem_parked.2 (Or.inr ht)

theorem Listed.poison (h : g.Listed) : g.poison.Listed := ⟨h.reachable, h.parked, h.called⟩

theorem unpark_called (hcalled : g.called ⊆ g.parked) :
    (g.unpark t).called ⊆ (g.unpark t).parked := by
  intro u hu
  obtain ⟨hu, hne⟩ := List.mem_filter.1 hu
  exact List.mem_filter.2 ⟨hcalled hu, hne⟩

theorem call_called (hcalled : g.called ⊆ g.parked) (woken : List Ticket) :
    (g.call woken).called ⊆ (g.call woken).parked := by
  refine List.append_subset.2 ⟨hcalled, fun u hu => ?_⟩
  exact of_decide_eq_true (List.mem_filter.1 hu).2

/-- Breaking off at the gate is breaking off on the bus.  The sleeper is gone, and who is let in by
it is called. -/
theorem abandon_eq (h : g.Listed) (ht : t ∈ g.parked) : ∃ woken,
    g.abandon t = ((g.unpark t).withBus (g.bus.run (g.bus.abandonment t)).2).call woken := by
  have hbus : (g.unpark t).bus = g.bus := rfl
  by_cases hgrant : t ∈ g.bus.granted
  · have hrun : (g.bus.run (g.bus.abandonment t)).2 =
        ((g.bus.takeGrant t).2.releaseTicket t).2 := by
      rw [Bus.abandonment, if_pos hgrant]
      rfl
    rw [hrun]
    simp only [abandon, hbus, Bus.withdraw_of_granted h.reachable hgrant]
    cases hr : (g.bus.takeGrant t).2.releaseTicket t with
    | mk answer bus =>
      cases answer with
      | ok woken => exact ⟨woken, rfl⟩
      | error => exact ⟨[], (call_nil _).symm⟩
  · have hrun : (g.bus.run (g.bus.abandonment t)).2 = (g.bus.withdraw t).2 := by
      rw [Bus.abandonment, if_neg hgrant]
      rfl
    obtain ⟨woken, hremoved⟩ := Bus.withdraw_removed_iff.2
      ((Bus.mem_pending.1 (h.parked.subset ht)).resolve_right hgrant)
    have hpair : g.bus.withdraw t = (.removed woken, (g.bus.withdraw t).2) := by
      rw [← hremoved]
    rw [hrun]
    refine ⟨woken, ?_⟩
    simp only [abandon, hbus]
    rw [hpair]

/-- **One sleeper breaks off.**  It is gone and the others sleep on; the slots in hand stay. -/
theorem Listed.abandon (h : g.Listed) (ht : t ∈ g.parked) : (g.abandon t).Listed ∧
    (g.abandon t).parked = g.parked.erase t ∧ (g.abandon t).bus.inHand.Perm g.bus.inHand ∧
      (g.abandon t).bus.config = g.bus.config := by
  have hnodup : g.parked.Nodup := h.parked.nodup_iff.2 (Bus.pending_nodup h.reachable)
  have herase : g.parked.filter (· ≠ t) = g.parked.erase t := Bus.filter_ne_eq_erase hnodup t
  have hpending := Bus.pending_abandonment h.reachable (h.parked.subset ht)
  obtain ⟨woken, heq⟩ := abandon_eq h ht
  have hparked : (g.abandon t).parked = g.parked.erase t := by
    rw [heq, ← herase]
    rfl
  have hbus : (g.abandon t).bus = (g.bus.run (g.bus.abandonment t)).2 := by
    rw [heq]
    rfl
  refine ⟨⟨?_, ?_, ?_⟩, hparked, ?_, ?_⟩
  · rw [hbus]
    exact h.reachable.run _
  · rw [hparked, hbus]
    exact (((List.perm_cons_erase ht).symm.trans h.parked).trans hpending).cons_inv
  · rw [heq]
    exact call_called (unpark_called h.called) woken
  · rw [hbus]
    exact Bus.inHand_abandonment h.reachable t
  · rw [hbus, Bus.config_run]

/-- **All sleepers break off**, in whatever order.  The outcome is the same for every order. -/
theorem Listed.abandonAll (h : g.Listed) {order : List Ticket} (horder : order.Perm g.parked) :
    (order.foldl Gate.abandon g).Listed ∧ (order.foldl Gate.abandon g).parked = [] ∧
      (order.foldl Gate.abandon g).bus.inHand.Perm g.bus.inHand ∧
      (order.foldl Gate.abandon g).bus.config = g.bus.config := by
  induction order generalizing g with
  | nil => exact ⟨h, horder.nil_eq.symm, List.Perm.refl _, rfl⟩
  | cons t order ih =>
    obtain ⟨hlisted, hparked, hinHand, hconfig⟩ := h.abandon (horder.subset List.mem_cons_self)
    have hrest : order.Perm (g.abandon t).parked := by
      rw [hparked]
      exact List.cons_perm_iff_perm_erase.1 horder |>.2
    obtain ⟨hlast, hnone, hinHand', hconfig'⟩ := ih hlisted hrest
    exact ⟨hlast, hnone, hinHand'.trans hinHand, hconfig'.trans hconfig⟩

/-- **Breaking off leaves nothing behind.**  Take a gate that callers in any number have used in any
way, and let a caller break off inside a stretch.  Then all sleepers break off, each once, in
whatever order.  In the end nobody sleeps or is called, nothing is queued or granted, and exactly
the slots are held that were in hand before.  The bus fits together and passes its own check. -/
theorem abandoned_run {config : Config} {g : Gate} (hg : Gate.build config = .ok g)
    (schedule : List (Nat × Crowd.Act)) {order : List Ticket}
    (horder : order.Perm (Crowd.run { gate := g } schedule).gate.parked) :
    let before := (Crowd.run { gate := g } schedule).gate
    let after := order.foldl Gate.abandon before.poison
    after.parked = [] ∧ after.called = [] ∧ after.bus.granted = [] ∧
      (∀ c, after.bus.waiting.get c = []) ∧
      after.bus.holders.Perm (before.bus.holders.filter fun x => x.1 ∉ before.parked) ∧
      after.bus.active = after.bus.holders.length ∧ after.bus.Consistent ∧
      (config.capacity ≤ Word.max64 → after.bus.check = .ok none) := by
  intro before after
  have htidy := Crowd.tidy_start hg
  have hbefore : before.Tidy := (htidy.run schedule).gate
  obtain ⟨hlisted, hnone, hinHand, hconfig⟩ := hbefore.listed.poison.abandonAll horder
  obtain ⟨hgranted, hwaiting, hheld⟩ := Bus.of_nobody_pending (hnone ▸ hlisted.parked).nil_eq.symm
  have hparked : before.bus.inHand =
      before.bus.holders.filter fun x => x.1 ∉ before.parked := by
    refine List.filter_congr fun x _ => ?_
    simp only [hbefore.parked.mem_iff]
  have hreach := hlisted.reachable
  have hcalled := List.eq_nil_of_subset_nil (hnone ▸ hlisted.called)
  refine ⟨hnone, hcalled, hgranted, hwaiting, ?_, hreach.sound.slots.holders_length.symm,
    hreach.consistent, fun hcap => hreach.check ?_⟩
  · rw [← hparked, ← hheld]
    exact hinHand
  · rw [hconfig]
    exact (Crowd.config_start hg schedule).symm ▸ hcap

/-- Three callers sleep behind two slots, the first of them with a grant.  It hands its slot back to
the second, which breaks off later. -/
theorem abandoned_run_two_slots :
    ∃ g, Gate.build ⟨2, .alternate, 1, false⟩ = .ok g ∧
      let before := (Crowd.run { gate := g } [(0, .acquire ⟨.outbound, .normal⟩),
        (1, .acquire ⟨.outbound, .normal⟩), (2, .acquire ⟨.outbound, .normal⟩),
        (3, .acquire ⟨.inbound, .normal⟩), (4, .acquire ⟨.outbound, .normal⟩),
        (0, .releaseTicket 0)]).gate
      let after := [2, 4, 3].foldl Gate.abandon before.poison
      [2, 4, 3].Perm before.parked ∧ before.bus.granted = [2] ∧
        (before.poison.abandon 2).bus.granted = [4] ∧ after.parked = [] ∧
        (∀ c, after.bus.waiting.get c = []) ∧
        after.bus.holders.Perm [(1, ⟨.outbound, .normal⟩)] ∧ after.bus.check = .ok none := by
  have hbuild : Gate.build ⟨2, .alternate, 1, false⟩ =
      .ok { bus := Bus.new ⟨2, .alternate, 1, false⟩ } := rfl
  obtain ⟨hparked, -, -, hwaiting, hholders, -, -, hcheck⟩ := abandoned_run hbuild
    [(0, .acquire ⟨.outbound, .normal⟩), (1, .acquire ⟨.outbound, .normal⟩),
      (2, .acquire ⟨.outbound, .normal⟩), (3, .acquire ⟨.inbound, .normal⟩),
      (4, .acquire ⟨.outbound, .normal⟩), (0, .releaseTicket 0)]
    (by decide : [2, 4, 3].Perm _)
  exact ⟨_, hbuild, by decide, rfl, rfl, hparked, hwaiting, hholders, hcheck (by decide)⟩

end Gate

end HalfDuplex

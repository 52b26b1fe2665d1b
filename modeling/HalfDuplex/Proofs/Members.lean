import HalfDuplex.Batch
import HalfDuplex.Proofs.InHand
import HalfDuplex.Proofs.Tally

/-!
# The members of a batch and the bus

The members of a batch make their steps in any order.  What the bus knows of them is what they are
doing: the pending tickets are those of the queued members, the slots in hand are those of the
members that are admitted, inside or leaving, and the admissions are counted once for each.

* `Batch.play` : a schedule of steps.
* `Batch.Turn` : what a step can come to, with the operation that it makes on the bus.
* `Batch.Manned` : the members and the bus agree.
* `Batch.Turn.manned` : every step keeps it so; in particular no release is refused.
* `Batch.Manned.of_stuck` : if no member has a step to make, all are done.
-/

namespace HalfDuplex

namespace Member

/-- The ticket with which a member is queued, and its cell. -/
def queued? (m : Member) : Option (Ticket × Cell) :=
  match m.phase with
  | .queued t => some (t, m.task.cell)
  | _ => none

/-- The slot that a member has in hand. -/
def slot? (m : Member) : Option (Ticket × Cell) :=
  match m.phase with
  | .admitted t _ | .inside t _ | .leaving t _ => some (t, m.task.cell)
  | _ => none

/-- Whether a member had to wait, once it has been admitted. -/
def answer? (m : Member) : Option Bool :=
  match m.phase with
  | .admitted _ waited | .inside _ waited | .leaving _ waited | .done waited => some waited
  | _ => none

/-- The member is through. -/
def isDone (m : Member) : Bool := (Batch.waited? m).isSome

variable {m : Member}

theorem phase_of_queued {x : Ticket × Cell} (h : m.queued? = some x) : m.phase = .queued x.1 := by
  unfold queued? at h
  split at h
  · cases h
    assumption
  · cases h

theorem isDone_iff : m.isDone = true ↔ ∃ waited, m.phase = .done waited := by
  unfold isDone Batch.waited?
  split
  · rename_i waited hp
    exact iff_of_true rfl ⟨waited, hp⟩
  · rename_i hnot
    exact iff_of_false Bool.false_ne_true fun ⟨waited, hp⟩ => hnot waited hp

end Member

namespace Batch

/-- The steps of a schedule, one after the other: who has its turn, and when.  A member without a
step to make lets its turn pass. -/
def play (b : Batch) : List (Nat × Nat) → Batch
  | [] => b
  | (i, time) :: rest => ((b.step? i time).getD b).play rest

/-- The batch after member `i` made an operation and came to another phase by it. -/
def onBus (b : Batch) (op : Op) (i : Nat) (m : Member) (phase : Phase) : Batch :=
  { b with bus := (b.bus.step op).2 }.advance i m phase

/-- What a step of member `i` can come to. -/
inductive Turn (b : Batch) (i : Nat) (m : Member) (time : Nat) : Batch → Prop where
  /-- The member is admitted on arrival. -/
  | arrive {t : Ticket} : m.phase = .ready →
      Op.arrived? (.request m.task.cell) (b.bus.step (.request m.task.cell)).1 =
        some (t, m.task.cell) →
      Turn b i m time (b.onBus (.request m.task.cell) i m (.admitted t false))
  /-- The member has to wait. -/
  | queue {t : Ticket} : m.phase = .ready →
      Op.joined? (.request m.task.cell) (b.bus.step (.request m.task.cell)).1 =
        some (t, m.task.cell) →
      Turn b i m time (b.onBus (.request m.task.cell) i m (.queued t))
  /-- The member picks up its grant. -/
  | collect {t : Ticket} : m.phase = .queued t → t ∈ b.bus.granted →
      Turn b i m time (b.onBus (.takeGrant t) i m (.admitted t true))
  /-- The member comes in. -/
  | enter {t : Ticket} {waited : Bool} : m.phase = .admitted t waited →
      Turn b i m time
        ({ b with watch := b.watch.enter m.visitor time }.advance i m (.inside t waited))
  /-- The member goes. -/
  | leave {t : Ticket} {waited : Bool} : m.phase = .inside t waited →
      Turn b i m time
        ({ b with watch := b.watch.leave m.visitor time }.advance i m (.leaving t waited))
  /-- The member gives back its slot. -/
  | release {t : Ticket} {waited : Bool} {woken : List Ticket} : m.phase = .leaving t waited →
      (b.bus.releaseTicket t).1 = .ok woken →
      Turn b i m time (b.onBus (.releaseTicket t) i m (.done waited))
  /-- The bus knows nothing of the slot. -/
  | refuse {t : Ticket} {waited : Bool} {fault : Fault} : m.phase = .leaving t waited →
      (b.bus.releaseTicket t).1 = .error fault →
      Turn b i m time (b.onBus (.releaseTicket t) i m (.failed fault))

/-- What the members are doing and what the bus knows of it agree. -/
structure Manned (b : Batch) : Prop where
  reachable : b.bus.Reachable
  /-- The pending tickets are those of the queued members. -/
  queued : ((b.members.filterMap Member.queued?).map Prod.fst).Perm b.bus.pending
  /-- Whom the bus owes a slot. -/
  owed : ∀ x ∈ b.members.filterMap Member.queued?, b.bus.Owed x
  /-- The slots in hand are those of the members. -/
  slots : (b.members.filterMap Member.slot?).Perm b.bus.inHand
  /-- Every admission that a member knows of is counted. -/
  admissions : b.bus.stats.admissions =
    (b.members.filterMap Member.answer?).length + b.bus.granted.length
  /-- Every admission of a member that had to wait is counted. -/
  waits : b.bus.stats.queued =
    (b.members.filterMap Member.answer?).count true + b.bus.granted.length
  sane : ∀ m ∈ b.members, fault? m = none

variable {b b' : Batch} {i : Nat} {m : Member} {time : Nat} {phase : Phase}

/-! ### Steps -/

/-- A step comes to one of the listed things. -/
theorem turn_step? (hi : b.members[i]? = some m) (h : b.step? i time = some b') :
    b.Turn i m time b' := by
  cases hp : m.phase with
  | ready =>
    cases hr : b.bus.request m.task.cell with
    | mk answer bus =>
      have hstep : b.bus.step (.request m.task.cell) = (.request answer, bus) := by
        simp only [Bus.step, hr]
      cases answer with
      | admitted t =>
        simp only [step?, hi, hp, hr, Option.some.injEq] at h
        have hturn : b.Turn i m time _ := .arrive (t := t) hp (by rw [hstep]; rfl)
        rw [onBus, hstep] at hturn
        exact h ▸ hturn
      | queued t =>
        simp only [step?, hi, hp, hr, Option.some.injEq] at h
        have hturn : b.Turn i m time _ := .queue (t := t) hp (by rw [hstep]; rfl)
        rw [onBus, hstep] at hturn
        exact h ▸ hturn
  | queued t =>
    by_cases ht : t ∈ b.bus.granted
    · simp only [step?, hi, hp, Bus.takeGrant, ht, decide_true, Option.some.injEq] at h
      exact h ▸ .collect hp ht
    · simp only [step?, hi, hp, Bus.takeGrant, ht, decide_false] at h
      cases h
  | admitted t waited =>
    simp only [step?, hi, hp, Option.some.injEq] at h
    exact h ▸ .enter hp
  | inside t waited =>
    simp only [step?, hi, hp, Option.some.injEq] at h
    exact h ▸ .leave hp
  | leaving t waited =>
    cases hr : b.bus.releaseTicket t with
    | mk answer bus =>
      have hbus : (b.bus.step (.releaseTicket t)).2 = bus := by
        simp only [Bus.step, hr]
      cases answer with
      | ok woken =>
        simp only [step?, hi, hp, hr, Option.some.injEq] at h
        have hok : (b.bus.releaseTicket t).1 = .ok woken := by rw [hr]
        have hturn : b.Turn i m time _ := .release hp hok
        rw [onBus, hbus] at hturn
        exact h ▸ hturn
      | error fault =>
        simp only [step?, hi, hp, hr, Option.some.injEq] at h
        have herror : (b.bus.releaseTicket t).1 = .error fault := by rw [hr]
        have hturn : b.Turn i m time _ := .refuse hp herror
        rw [onBus, hbus] at hturn
        exact h ▸ hturn
  | done waited =>
    simp only [step?, hi, hp] at h
    cases h
  | failed fault =>
    simp only [step?, hi, hp] at h
    cases h

theorem stuck_cases (hi : b.members[i]? = some m) (h : b.step? i time = none) :
    (∃ t, m.phase = .queued t ∧ t ∉ b.bus.granted) ∨ m.isDone = true ∨ fault? m ≠ none := by
  cases hp : m.phase with
  | ready =>
    cases hr : b.bus.request m.task.cell with
    | mk answer bus =>
      cases answer <;>
      · simp only [step?, hi, hp, hr] at h
        cases h
  | queued t =>
    refine Or.inl ⟨t, rfl, fun ht => ?_⟩
    simp only [step?, hi, hp, Bus.takeGrant, ht, decide_true] at h
    cases h
  | admitted | inside =>
    simp only [step?, hi, hp] at h
    cases h
  | leaving t waited =>
    cases hr : b.bus.releaseTicket t with
    | mk answer bus =>
      cases answer <;>
      · simp only [step?, hi, hp, hr] at h
        cases h
  | done waited => exact Or.inr (Or.inl (Member.isDone_iff.2 ⟨waited, hp⟩))
  | failed fault =>
    refine Or.inr (Or.inr ?_)
    rw [fault?, hp]
    exact Option.some_ne_none fault

/-! ### One member changes -/

theorem filterMap_set {α β : Type} [DecidableEq α] (f : β → Option α) {l : List β} {i : Nat} {x : β}
    (hi : l[i]? = some x) (y : β) :
    (l.filterMap f ++ (f y).toList).Perm ((f x).toList ++ (l.set i y).filterMap f) := by
  rw [List.perm_iff_count]
  intro a
  rw [List.count_append, List.count_append]
  induction l generalizing i with
  | nil => cases hi
  | cons z l ih =>
    cases i with
    | zero =>
      cases hi
      rw [List.set_cons_zero, Bus.count_filterMap_cons, Bus.count_filterMap_cons]
      omega
    | succ i =>
      have hrest := ih hi
      rw [List.set_cons_succ, Bus.count_filterMap_cons, Bus.count_filterMap_cons]
      omega

theorem filterMap_set_of_eq {α β : Type} {f : β → Option α} {l : List β} {i : Nat} {x y : β}
    (hi : l[i]? = some x) (hxy : f y = f x) : (l.set i y).filterMap f = l.filterMap f := by
  induction l generalizing i with
  | nil => cases hi
  | cons z l ih =>
    cases i with
    | zero =>
      cases hi
      simp only [List.set_cons_zero, List.filterMap_cons, hxy]
    | succ i => simp only [List.set_cons_succ, List.filterMap_cons, ih hi]

/-- An operation in which the bus notices of the member what becomes of it keeps them in agreement.
-/
theorem Manned.onBus (h : b.Manned) (hi : b.members[i]? = some m) (op : Op) (phase : Phase)
    (hj : Member.queued? { m with phase := phase } = op.joined? (b.bus.step op).1)
    (hd : m.queued?.map Prod.fst = op.dismissed? (b.bus.step op).1)
    (hslot : (b.bus.inHand ++ (Member.slot? { m with phase := phase }).toList).Perm
      (m.slot?.toList ++ (b.bus.step op).2.inHand))
    (hanswer : (Member.answer? { m with phase := phase }).toList.length =
      m.answer?.toList.length + (op.arrived? (b.bus.step op).1).toList.length +
        (op.collected? (b.bus.step op).1).toList.length)
    (hwaited : (Member.answer? { m with phase := phase }).toList.count true =
      m.answer?.toList.count true + (op.collected? (b.bus.step op).1).toList.length)
    (hticket : ∀ t ∈ b.bus.pending, op ≠ .releaseTicket t) (hcell : ∀ c, op ≠ .release c)
    (hsane : fault? { m with phase := phase } = none) : (b.onBus op i m phase).Manned := by
  have hreach := h.reachable
  have hqueue := filterMap_set Member.queued? hi { m with phase := phase }
  rw [hj] at hqueue
  have hqueued : (((b.onBus op i m phase).members.filterMap Member.queued?).map Prod.fst).Perm
      (b.bus.step op).2.pending := by
    have hlaw := hqueue.map Prod.fst
    have hgone : m.queued?.toList.map Prod.fst = (op.dismissed? (b.bus.step op).1).toList := by
      rw [← hd, Option.toList_map]
    rw [List.map_append, List.map_append, hgone] at hlaw
    have hbus := (h.queued.append_right _).trans (Bus.pending_step hreach op)
    exact (List.perm_append_left_iff _).1 (hlaw.symm.trans hbus)
  constructor
  case reachable => exact hreach.step op
  case queued => exact hqueued
  case owed =>
    intro x hx
    have hgone : op.dismissed? (b.bus.step op).1 ≠ some x.1 := fun hx' =>
      (Bus.pending_of_dismissed hreach hx').2 (hqueued.subset (List.mem_map_of_mem hx))
    rcases List.mem_append.1 (hqueue.symm.subset (List.mem_append_right _ hx)) with hold | hnew
    · have hpending := h.queued.subset (List.mem_map_of_mem hold)
      exact (h.owed x hold).step hreach hgone (hticket x.1 hpending) hcell
    · exact Or.inl (Bus.waiting_of_joined hreach (Option.mem_toList.1 hnew)).2
  case slots =>
    have hlaw := filterMap_set Member.slot? hi { m with phase := phase }
    exact (List.perm_append_left_iff _).1 (hlaw.symm.trans ((h.slots.append_right _).trans hslot))
  case admissions =>
    have hlaw := (filterMap_set Member.answer? hi { m with phase := phase }).length_eq
    rw [List.length_append, List.length_append, hanswer] at hlaw
    have hcount := Bus.pickedUp_step hreach op
    have hold := h.admissions
    simp only [Batch.onBus, advance]
    omega
  case waits =>
    have hlaw := (filterMap_set Member.answer? hi { m with phase := phase }).count_eq true
    rw [List.count_append, List.count_append, hwaited] at hlaw
    have hcount := Bus.pickedUpQueued_step hreach op
    have hold := h.waits
    simp only [Batch.onBus, advance]
    omega
  case sane =>
    intro m' hm'
    rcases List.mem_or_eq_of_mem_set hm' with hold | rfl
    · exact h.sane m' hold
    · exact hsane

theorem Manned.beside (h : b.Manned) (hi : b.members[i]? = some m) (phase : Phase)
    (watch : Occupancy) (hq : Member.queued? { m with phase := phase } = m.queued?)
    (hs : Member.slot? { m with phase := phase } = m.slot?)
    (ha : Member.answer? { m with phase := phase } = m.answer?)
    (hsane : fault? { m with phase := phase } = none) :
    ({ b with watch := watch }.advance i m phase).Manned := by
  constructor
  case reachable => exact h.reachable
  case queued =>
    simp only [advance, filterMap_set_of_eq hi hq]
    exact h.queued
  case owed =>
    simp only [advance, filterMap_set_of_eq hi hq]
    exact h.owed
  case slots =>
    simp only [advance, filterMap_set_of_eq hi hs]
    exact h.slots
  case admissions =>
    simp only [advance, filterMap_set_of_eq hi ha]
    exact h.admissions
  case waits =>
    simp only [advance, filterMap_set_of_eq hi ha]
    exact h.waits
  case sane =>
    intro m' hm'
    rcases List.mem_or_eq_of_mem_set hm' with hold | rfl
    · exact h.sane m' hold
    · exact hsane

theorem Manned.mem_inHand (h : b.Manned) (hi : b.members[i]? = some m) {x : Ticket × Cell}
    (hx : m.slot? = some x) : x ∈ b.bus.inHand :=
  h.slots.subset (List.mem_filterMap.2 ⟨m, List.mem_of_getElem? hi, hx⟩)

/-- **Every step keeps members and bus in agreement.** -/
theorem Turn.manned (hturn : b.Turn i m time b') (hi : b.members[i]? = some m) (h : b.Manned) :
    b'.Manned := by
  have hreach := h.reachable
  cases hturn with
  | @arrive t hp harrived =>
    obtain ⟨hj, hd⟩ := Bus.told_of_arrived harrived
    have hc : Op.collected? (.request m.task.cell) (b.bus.step (.request m.task.cell)).1 = none :=
      rfl
    refine h.onBus hi _ _ hj.symm ?_ ?_ ?_ ?_ nofun nofun rfl
    · rw [hd, Member.queued?, hp]
      rfl
    · rw [Member.slot?, Member.slot?, hp]
      have hslots := Bus.inHand_arrived hreach harrived
      exact (List.perm_append_singleton _ _).trans hslots.symm
    · rw [harrived, hc, Member.answer?, Member.answer?, hp]
      rfl
    · rw [hc, Member.answer?, Member.answer?, hp]
      rfl
  | @queue t hp hjoined =>
    have harrived : Op.arrived? (.request m.task.cell) (b.bus.step (.request m.task.cell)).1 =
        none := by
      refine Option.eq_none_iff_forall_ne_some.2 fun x hx => ?_
      rw [(Bus.told_of_arrived hx).1] at hjoined
      cases hjoined
    refine h.onBus hi _ _ hjoined.symm ?_ ?_ ?_ ?_ nofun nofun rfl
    · rw [Bus.dismissed_of_joined hjoined, Member.queued?, hp]
      rfl
    · rw [Member.slot?, Member.slot?, hp]
      have hslots := Bus.inHand_still hreach (.request m.task.cell) nofun nofun harrived nofun
      exact (List.Perm.of_eq (List.append_nil _)).trans hslots.symm
    · rw [harrived, Member.answer?, Member.answer?, hp]
      rfl
    · rw [Member.answer?, Member.answer?, hp]
      rfl
  | @collect t hp ht =>
    have hqueued : m.queued? = some (t, m.task.cell) := by rw [Member.queued?, hp]
    have hheld : (t, m.task.cell) ∈ b.bus.holders := by
      rcases h.owed _ (List.mem_filterMap.2 ⟨m, List.mem_of_getElem? hi, hqueued⟩) with hw | hg
      · exact absurd ht (hreach.sound.tickets.not_granted hw)
      · exact hg.2
    refine h.onBus hi _ _ rfl ?_ ?_ ?_ ?_ nofun nofun rfl
    · rw [hqueued, Crowd.dismissed_of_granted ht]
      rfl
    · rw [Member.slot?, Member.slot?, hp]
      have hslots := Bus.inHand_collected hreach hheld ht
      exact (List.perm_append_singleton _ _).trans hslots.symm
    · rw [Bus.collected_of_granted ht, Member.answer?, Member.answer?, hp]
      rfl
    · rw [Bus.collected_of_granted ht, Member.answer?, Member.answer?, hp]
      rfl
  | enter hp =>
    refine h.beside hi _ _ ?_ ?_ ?_ rfl
    · rw [Member.queued?, Member.queued?, hp]
    · rw [Member.slot?, Member.slot?, hp]
    · rw [Member.answer?, Member.answer?, hp]
  | leave hp =>
    refine h.beside hi _ _ ?_ ?_ ?_ rfl
    · rw [Member.queued?, Member.queued?, hp]
    · rw [Member.slot?, Member.slot?, hp]
    · rw [Member.answer?, Member.answer?, hp]
  | @release t waited woken hp hok =>
    have hin := h.mem_inHand hi (x := (t, m.task.cell)) (by rw [Member.slot?, hp])
    refine h.onBus hi _ _ rfl ?_ ?_ ?_ ?_ ?_ nofun rfl
    · rw [Member.queued?, hp]
      rfl
    · rw [Member.slot?, Member.slot?, hp]
      have hslots := Bus.inHand_released hreach hin
      exact (List.Perm.of_eq (List.append_nil _)).trans hslots
    · rw [Member.answer?, Member.answer?, hp]
      rfl
    · rw [Member.answer?, Member.answer?, hp]
      rfl
    -- what is in hand is not pending
    · rintro u hu hop
      rw [← Op.releaseTicket.inj hop] at hu
      exact (Bus.mem_inHand.1 hin).2 hu
  | @refuse t waited fault hp herror =>
    have hin := h.mem_inHand hi (x := (t, m.task.cell)) (by rw [Member.slot?, hp])
    obtain ⟨woken, hok⟩ := Bus.releaseTicket_ok_iff.2 ⟨m.task.cell, (Bus.mem_inHand.1 hin).1⟩
    rw [hok] at herror
    cases herror

/-! ### Nobody is stuck, and nothing is left over -/

/-- What every step preserves holds after any schedule. -/
theorem play_induct {P : Batch → Prop}
    (hstep : ∀ b i time b', P b → b.step? i time = some b' → P b') (h : P b)
    (schedule : List (Nat × Nat)) : P (b.play schedule) := by
  induction schedule generalizing b with
  | nil => exact h
  | cons x rest ih =>
    obtain ⟨i, time⟩ := x
    rw [play]
    refine ih ?_
    cases hs : b.step? i time with
    | none => exact h
    | some b' => exact hstep b i time b' h hs

namespace Manned

variable (h : b.Manned)

include h

theorem inHand_eq_nil
    (hall : ∀ m ∈ b.members, (∃ t, m.phase = .queued t) ∨ m.isDone = true) :
    b.bus.inHand = [] := by
  have hslots : b.members.filterMap Member.slot? = [] := by
    refine List.filterMap_eq_nil_iff.2 fun m hm => ?_
    rcases hall m hm with ⟨t, hp⟩ | hdone
    · rw [Member.slot?, hp]
    · obtain ⟨waited, hp⟩ := Member.isDone_iff.1 hdone
      rw [Member.slot?, hp]
  exact (hslots ▸ h.slots).nil_eq.symm

/-- **If no member has a step to make, all are done.**  Were some still waiting, a holder would have
a grant, and its member a step. -/
theorem of_stuck (hstuck : ∀ i, ∃ time, b.step? i time = none) :
    ∀ m ∈ b.members, m.isDone = true := by
  have hreach := h.reachable
  have hcases : ∀ m ∈ b.members,
      (∃ t, m.phase = .queued t ∧ t ∉ b.bus.granted) ∨ m.isDone = true := by
    intro m hm
    obtain ⟨i, hi⟩ := List.mem_iff_getElem?.1 hm
    obtain ⟨time, hnone⟩ := hstuck i
    exact (stuck_cases hi hnone).imp_right fun hend => hend.resolve_right (not_not.2 (h.sane m hm))
  have hinHand : b.bus.inHand = [] := h.inHand_eq_nil fun m hm =>
    (hcases m hm).imp_left fun ⟨t, hp, _⟩ => ⟨t, hp⟩
  have hgranted : ∀ t, t ∉ b.bus.granted := by
    intro t ht
    have hpending := h.queued.symm.subset (List.mem_append_right _ ht)
    obtain ⟨x, hx, rfl⟩ := List.mem_map.1 hpending
    obtain ⟨m, hm, hmx⟩ := List.mem_filterMap.1 hx
    have hp := Member.phase_of_queued hmx
    rcases hcases m hm with ⟨t, hp', hnot⟩ | hdone
    · rw [hp] at hp'
      cases hp'
      exact hnot ht
    · obtain ⟨waited, hp'⟩ := Member.isDone_iff.1 hdone
      rw [hp] at hp'
      cases hp'
  have hholders : b.bus.holders = [] := by
    refine List.eq_nil_iff_forall_not_mem.2 fun x hx => ?_
    by_cases hpending : x.1 ∈ b.bus.pending
    · rcases Bus.mem_pending.1 hpending with ⟨c, hw⟩ | hg
      · exact hreach.sound.tickets.not_holding hw (List.mem_map_of_mem hx)
      · exact hgranted _ hg
    · have hmem := Bus.mem_inHand.2 ⟨hx, hpending⟩
      rw [hinHand] at hmem
      cases hmem
  -- on the empty bus nobody waits
  have hactive : b.bus.active = 0 := by
    rw [← hreach.sound.slots.holders_length, hholders, List.length_nil]
  intro m hm
  refine (hcases m hm).resolve_left fun ⟨t, hp, _⟩ => ?_
  have hqueued : m.queued? = some (t, m.task.cell) := by rw [Member.queued?, hp]
  have hpending := h.queued.subset (List.mem_map_of_mem (List.mem_filterMap.2 ⟨m, hm, hqueued⟩))
  rcases Bus.mem_pending.1 hpending with ⟨c, hw⟩ | hg
  · rw [hreach.settled.idle hactive c] at hw
    cases hw
  · exact hgranted _ hg

/-- **When all members are done, nothing is left over on the bus**, and every one of them has been
counted. -/
theorem of_done (hdone : ∀ m ∈ b.members, m.isDone = true) :
    b.bus.active = 0 ∧ (∀ c, b.bus.waiting.get c = []) ∧
      b.bus.stats.admissions = b.members.length ∧
      (b.members.filterMap waited?).length = b.members.length ∧
      (b.members.filterMap waited?).count true = b.bus.stats.queued := by
  have hphase : ∀ m ∈ b.members, ∃ waited, m.phase = .done waited :=
    fun m hm => Member.isDone_iff.1 (hdone m hm)
  have hqueued : b.members.filterMap Member.queued? = [] := by
    refine List.filterMap_eq_nil_iff.2 fun m hm => ?_
    obtain ⟨waited, hp⟩ := hphase m hm
    rw [Member.queued?, hp]
  have hnone : b.bus.pending = [] := (hqueued ▸ h.queued).nil_eq.symm
  obtain ⟨hgranted, hwaiting, hheld⟩ := Bus.of_nobody_pending hnone
  have hanswers : b.members.filterMap Member.answer? = b.members.filterMap waited? := by
    refine List.filterMap_congr fun m hm => ?_
    obtain ⟨waited, hp⟩ := hphase m hm
    rw [Member.answer?, waited?, hp]
  have hlength : (b.members.filterMap waited?).length = b.members.length :=
    List.filterMap_length_eq_length.2 hdone
  refine ⟨?_, hwaiting, ?_, hlength, ?_⟩
  · rw [← h.reachable.sound.slots.holders_length, ← hheld,
      h.inHand_eq_nil fun m hm => Or.inr (hdone m hm), List.length_nil]
  · rw [h.admissions, hanswers, hgranted, hlength]
    rfl
  · rw [h.waits, hanswers, hgranted]
    rfl

end Manned

end Batch

end HalfDuplex

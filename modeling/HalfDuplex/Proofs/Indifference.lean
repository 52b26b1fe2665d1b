import HalfDuplex.Proofs.Cycle

/-!
# It does not matter who leaves

A slot can be given back by cell or by ticket, and either way there may be several holders who could
be meant.  A bus records who holds its slots, but it decides from the queues and from the number of
held slots alone.  So two runs that differ only in who gives back a slot go on alike.

* `Op.Alike` : the same operation, or two that each give back a slot.
* `Bus.Twin` : two buses that differ at most in who holds their slots.
* `Bus.Twin.dispatchMoves` : twins let in the same waiters.
* `Bus.Twin.step`, `Bus.Twin.release` : alike operations get the same answer and leave twins.
* `Bus.twin_run` : the same for runs.

Only a release that is refused tells who holds what.
-/

namespace HalfDuplex

namespace Op

/-- The operation asks to give back a slot. -/
def isRelease : Op → Bool
  | release _ => true
  | releaseTicket _ => true
  | _ => false

/-- The same operation, or two that each give back a slot, whosever it is. -/
inductive Alike : Op → Op → Prop where
  | same {op : Op} : op.isRelease = false → Alike op op
  | release {op op' : Op} : op.isRelease = true → op'.isRelease = true → Alike op op'

end Op

namespace Bus

/-- The two buses differ at most in who holds their slots. -/
def Twin (b b' : Bus) : Prop := b' = { b with holders := b'.holders, held := b'.held }

variable {b b' : Bus} {op op' : Op}

theorem Twin.refl (b : Bus) : b.Twin b := rfl

theorem twin_rerecord (b : Bus) (holders : List (Ticket × Cell)) (held : PerCell Nat) :
    b.Twin { b with holders := holders, held := held } := rfl

theorem Twin.exists_record (h : b.Twin b') :
    ∃ holders held, b' = { b with holders := holders, held := held } := ⟨_, _, h⟩

/-! ### Moves of twins -/

theorem Twin.occupy (h : b.Twin b') (t : Ticket) (c : Cell) (why : Option Reason) :
    (b.occupy t c why).Twin (b'.occupy t c why) := by
  have hactive : b'.active = b.active := by rw [h]
  obtain ⟨holders, held, rfl⟩ := h.exists_record
  unfold Bus.occupy
  rw [hactive]
  split_ifs <;> rfl

theorem Twin.perform (h : b.Twin b') (m : Move) : (b.perform m).Twin (b'.perform m) := by
  obtain ⟨holders, held, rfl⟩ := h.exists_record
  cases m with
  | arrive t c =>
    have hslot := (twin_rerecord b.issued holders held).occupy t c none
    exact congrArg countImmediate hslot
  | board t c why =>
    have hslot := (twin_rerecord { b with waiting := b.waiting.set c (b.waiting.get c).tail }
      holders held).occupy t c why
    exact congrArg (fun s => s.grant t) hslot
  | enqueue | collect | vacate | leave | refuse => rfl

theorem Twin.vacate (h : b.Twin b') (t t' : Ticket) (c c' : Cell) :
    (b.perform (.vacate t c)).Twin (b'.perform (.vacate t' c')) := by
  obtain ⟨holders, held, rfl⟩ := h.exists_record
  rfl

theorem Twin.performAll (h : b.Twin b') (ms : List Move) :
    (b.performAll ms).Twin (b'.performAll ms) := by
  induction ms generalizing b b' with
  | nil => exact h
  | cons m ms ih => exact ih (h.perform m)

theorem Twin.serveMoves (h : b.Twin b') (d : Direction) (why : Option Reason) (room : Nat) :
    serveMoves d why room b' = serveMoves d why room b := by
  induction room generalizing b b' with
  | zero => rfl
  | succ room ih =>
    have hwaiting : b'.waiting = b.waiting := by rw [h]
    cases hp : b.popWaiter? d with
    | none =>
      have hp' : b'.popWaiter? d = none := by
        have hnone := hasWaiters_eq_false.1 (popWaiter?_eq_none hp)
        simp only [popWaiter?, hwaiting, hnone]
      simp only [Bus.serveMoves, hp, hp']
    | some next =>
      obtain ⟨t, c, s⟩ := next
      obtain ⟨s', hp'⟩ : ∃ s', b'.popWaiter? d = some (t, c, s') := by
        revert hp
        simp only [popWaiter?, hwaiting]
        split
        · rintro ⟨⟩
          exact ⟨_, rfl⟩
        · rintro ⟨⟩
          exact ⟨_, rfl⟩
        · rintro ⟨⟩
      simp only [Bus.serveMoves, hp, hp', ih (h.perform _)]

/-- **Twins let in the same waiters.** -/
theorem Twin.dispatchMoves (h : b.Twin b') : b'.dispatchMoves = b.dispatchMoves := by
  have hserve := fun d why => h.serveMoves d why (b.config.capacity - b.active)
  obtain ⟨holders, held, rfl⟩ := h.exists_record
  -- the decisions read neither the holders nor their counts
  have hyields : ∀ d, yields { b with holders := holders, held := held } d = b.yields d :=
    fun _ => rfl
  have hturn : nextTurn { b with holders := holders, held := held } = b.nextTurn := rfl
  simp only [Bus.dispatchMoves, hyields, hturn, hserve]

theorem Twin.moves (h : b.Twin b') (hop : op.isRelease = false) : b'.moves op = b.moves op := by
  have hdispatch := fun m => (h.perform m).dispatchMoves
  obtain ⟨holders, held, rfl⟩ := h.exists_record
  have haccepts : ∀ c, accepts { b with holders := holders, held := held } c = b.accepts c :=
    fun _ => rfl
  have hqueue : ∀ t, queueOf? { b with holders := holders, held := held } t = b.queueOf? t :=
    fun _ => rfl
  cases op with
  | request | tryRequest => simp only [Bus.moves, haccepts]
  | takeGrant => rfl
  | withdraw t => simp only [Bus.moves, hqueue, hdispatch]
  | release | releaseTicket => cases hop

/-! ### Operations on twins -/

/-- The same operation, other than a release, gets the same answer from twins and leaves twins. -/
theorem Twin.step (h : b.Twin b') (hop : op.isRelease = false) :
    (b'.step op).1 = (b.step op).1 ∧ (b.step op).2.Twin (b'.step op).2 := by
  constructor
  · have hdispatch := fun m => (h.perform m).dispatchMoves
    obtain ⟨holders, held, rfl⟩ := h.exists_record
    cases op with
    | request c =>
      have haccepts : accepts { b with holders := holders, held := held } c = b.accepts c := rfl
      simp only [Bus.step, request, haccepts]
      split_ifs <;> rfl
    | tryRequest c =>
      have haccepts : accepts { b with holders := holders, held := held } c = b.accepts c := rfl
      simp only [Bus.step, tryRequest, haccepts]
      split_ifs <;> rfl
    | takeGrant => rfl
    | withdraw t =>
      have hqueue : queueOf? { b with holders := holders, held := held } t = b.queueOf? t := rfl
      cases hq : b.queueOf? t with
      | none => simp only [Bus.step, withdraw, hqueue, hq]
      | some c =>
        have hmoves := hdispatch (.leave t c)
        simp only [Bus.step, withdraw, hqueue, hq, dispatch_eq]
        exact congrArg (fun ms => Answer.withdraw (.removed (ms.filterMap Move.boarded?))) hmoves
    | release | releaseTicket => cases hop
  · rw [step_eq_performAll, step_eq_performAll, h.moves hop]
    exact h.performAll _

theorem step_of_not_refused (hop : op.isRelease = true)
    (hok : ∀ fault, (b.step op).1 ≠ .refused fault) : ∃ t c, (t, c) ∈ b.holders ∧
      b.step op = (.released ((b.perform (.vacate t c)).dispatchMoves.filterMap Move.boarded?),
        (b.perform (.vacate t c)).performAll (b.perform (.vacate t c)).dispatchMoves) := by
  cases op with
  | release c =>
    cases ho : b.oldestHolder? c with
    | none =>
      simp only [Bus.step, Bus.release, ho] at hok
      exact absurd rfl (hok _)
    | some t =>
      refine ⟨t, c, mem_holders_of_oldest ho, ?_⟩
      simp only [Bus.step, Bus.release, ho, dispatch_eq]
      rfl
  | releaseTicket t =>
    cases hcell : b.cellOf? t with
    | none =>
      simp only [Bus.step, Bus.releaseTicket, hcell] at hok
      exact absurd rfl (hok _)
    | some c =>
      refine ⟨t, c, mem_holders_of_cellOf hcell, ?_⟩
      simp only [Bus.step, Bus.releaseTicket, hcell, dispatch_eq]
      rfl
  | request | tryRequest | takeGrant | withdraw => cases hop

/-- Two releases that are not refused, of whichever slots, wake the same tickets and leave twins. -/
theorem Twin.release (h : b.Twin b') (hop : op.isRelease = true) (hop' : op'.isRelease = true)
    (hok : ∀ fault, (b.step op).1 ≠ .refused fault)
    (hok' : ∀ fault, (b'.step op').1 ≠ .refused fault) :
    (b'.step op').1 = (b.step op).1 ∧ (b.step op).2.Twin (b'.step op').2 := by
  obtain ⟨t, c, -, hstep⟩ := step_of_not_refused hop hok
  obtain ⟨t', c', -, hstep'⟩ := step_of_not_refused hop' hok'
  have hvacated := h.vacate t t' c c'
  rw [hstep, hstep', hvacated.dispatchMoves]
  exact ⟨rfl, hvacated.performAll _⟩

theorem Twin.step_alike (h : b.Twin b') (halike : op.Alike op')
    (hok : ∀ fault, (b.step op).1 ≠ .refused fault)
    (hok' : ∀ fault, (b'.step op').1 ≠ .refused fault) :
    (b'.step op').1 = (b.step op).1 ∧ (b.step op).2.Twin (b'.step op').2 := by
  cases halike with
  | same hop => exact h.step hop
  | release hop hop' => exact h.release hop hop' hok hok'

/-! ### Runs of twins -/

/-- **It does not matter who leaves.**  Two runs make the same requests, withdrawals and pick-ups
and give back slots at the same points, whosever slots, by cell or by ticket, and no release is
refused.  Then every operation gets the same answer in both runs, with the same woken tickets, and
after each the two buses differ at most in who holds their slots. -/
theorem twin_run (h : b.Twin b') {ops ops' : List Op} (halike : ops.Forall₂ Op.Alike ops')
    (hok : ∀ fault, .refused fault ∉ (b.run ops).1)
    (hok' : ∀ fault, .refused fault ∉ (b'.run ops').1) :
    (b'.run ops').1 = (b.run ops).1 ∧ (b.stages ops).Forall₂ Twin (b'.stages ops') := by
  induction halike generalizing b b' with
  | nil => exact ⟨rfl, .cons h .nil⟩
  | @cons op op' ops ops' hop _ ih =>
    have hanswers : ∀ (s : Bus) o os, (s.run (o :: os)).1 =
        (s.step o).1 :: ((s.step o).2.run os).1 := fun _ _ _ => rfl
    simp only [hanswers, List.mem_cons, not_or] at hok hok'
    obtain ⟨hanswer, htwin⟩ :=
      h.step_alike hop (fun fault => Ne.symm (hok fault).1) (fun fault => Ne.symm (hok' fault).1)
    obtain ⟨hrest, hstages⟩ := ih htwin (fun fault => (hok fault).2) fun fault => (hok' fault).2
    exact ⟨by rw [hanswers, hanswers, hanswer, hrest], .cons h hstages⟩

/-- A bus with two slots, one held by an elevated ticket and one by a normal one: the first run
gives back the normal one first and the second run the elevated one, and either wakes the same
waiters. -/
theorem twin_run_two_slots :
    let b := Bus.new ⟨2, .alternate, 1, false⟩
    let ops : List Op := [.request ⟨.outbound, .normal⟩, .request ⟨.outbound, .elevated⟩,
      .request ⟨.inbound, .normal⟩, .request ⟨.outbound, .normal⟩, .releaseTicket 0,
      .release ⟨.outbound, .elevated⟩, .releaseTicket 3]
    let ops' : List Op := [.request ⟨.outbound, .normal⟩, .request ⟨.outbound, .elevated⟩,
      .request ⟨.inbound, .normal⟩, .request ⟨.outbound, .normal⟩,
      .release ⟨.outbound, .elevated⟩, .releaseTicket 3, .release ⟨.outbound, .normal⟩]
    (b.run (ops.take 5)).2.holders ≠ (b.run (ops'.take 5)).2.holders ∧
      (b.run ops).1.flatMap Answer.woken = [3, 2] ∧ (b.run ops').1 = (b.run ops).1 ∧
      (b.stages ops).Forall₂ Twin (b.stages ops') := by
  intro b ops ops'
  have halike : ops.Forall₂ Op.Alike ops' :=
    .cons (.same rfl) <| .cons (.same rfl) <| .cons (.same rfl) <| .cons (.same rfl) <|
      .cons (.release rfl rfl) <| .cons (.release rfl rfl) <| .cons (.release rfl rfl) .nil
  have hanswers : (b.run ops).1 = [.request (.admitted 0), .request (.admitted 1),
      .request (.queued 2), .request (.queued 3), .released [3], .released [], .released [2]] := by
    decide
  have hanswers' : (b.run ops').1 = [.request (.admitted 0), .request (.admitted 1),
      .request (.queued 2), .request (.queued 3), .released [3], .released [], .released [2]] := by
    decide
  exact ⟨by decide, by decide,
    twin_run (.refl b) halike (by simp [hanswers]) (by simp [hanswers'])⟩

end Bus

end HalfDuplex

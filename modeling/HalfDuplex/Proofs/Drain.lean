import HalfDuplex.Proofs.Balance

/-!
# A bus drains

When no more callers arrive and none withdraws, the slots are given back one by one and the waiters
follow.  Every slot that is given back leaves one caller less to serve, and as long as a caller is
left somebody holds a slot.  So no waiter is stranded, whoever gives back first.

* `Bus.unfinished` : the callers that are not yet through.
* `Bus.unfinished_run` : callers come by requests and go by releases and withdrawals.
* `Bus.Drains` : after exactly so many releases the bus is idle, whoever releases.
* `Bus.drained_run` : every bus of a run drains, and every waiter is woken once.

A yielding bus refuses to fill up while the other side waits.  That strands nobody either: the bus
empties, and then it is the other side's turn.
-/

namespace HalfDuplex

/-- The operations other than requests and withdrawals. -/
def Op.quiet : Op → Bool
  | .takeGrant _ => true
  | .release _ => true
  | .releaseTicket _ => true
  | _ => false

namespace Bus

/-- The number of callers that hold a slot or wait for one. -/
def unfinished (b : Bus) : Nat := b.active + b.totalWaiting

/-- The bus is idle after exactly `n` releases, whoever gives back its slot, in whatever order. -/
inductive Drains : Nat → Bus → Prop where
  | idle {b : Bus} : b.isIdle = true → Drains 0 b
  | busy {n : Nat} {b : Bus} : b.holders ≠ [] →
      (∀ t c op, (t, c) ∈ b.holders → op = .releaseTicket t ∨ op = .release c →
        (b.step op).1.gaveBack = true) →
      (∀ t c op, (t, c) ∈ b.holders → op = .releaseTicket t ∨ op = .release c →
        Drains n (b.step op).2) →
      Drains (n + 1) b

variable {b : Bus} {op : Op} {ops : List Op} {t : Ticket} {c : Cell}

/-! ### Callers come and go -/

theorem count_gaveBack_run (b : Bus) (ops : List Op) :
    (b.run ops).1.countP Answer.gaveBack = ((b.trace ops).filterMap Move.vacated?).length :=
  countP_run (fun s op => (tells_step s op).gaveBack) b ops

/-- **Callers come by requests and go by releases and withdrawals.** -/
theorem unfinished_run (h : b.Reachable) (ops : List Op) :
    b.unfinished + (b.told Op.joined? ops).length + (b.told Op.arrived? ops).length =
      (b.told Op.withdrawn? ops).length + (b.run ops).1.countP Answer.gaveBack +
        (b.run ops).2.unfinished := by
  have hqueue := (queue_run h ops).length_eq
  have hslots := (holders_performAll h.booked (h.legal ops)).length_eq
  have hadmitted := (admitted_perm (b.trace ops)).length_eq
  rw [← run_eq_performAll] at hslots
  simp only [List.length_append, List.length_map, length_queue, woken_run] at hqueue
  simp only [List.length_append, h.sound.slots.holders_length,
    (h.run ops).sound.slots.holders_length] at hslots
  simp only [List.length_append, List.length_map] at hadmitted
  rw [count_gaveBack_run, told_eq fun s op => (tells_step s op).arrived]
  simp only [unfinished]
  omega

theorem told_quiet (hquiet : ∀ op ∈ ops, op.quiet = true) :
    b.told Op.joined? ops = [] ∧ b.told Op.arrived? ops = [] ∧
      b.told Op.withdrawn? ops = [] := by
  have hnone : ∀ {α : Type} {f : Op → Answer → Option α},
      (∀ op answer, op.quiet = true → f op answer = none) → b.told f ops = [] := by
    intro α f hf
    refine List.filterMap_eq_nil_iff.2 fun x hx => ?_
    exact hf x.1 x.2 (hquiet x.1 (List.of_mem_zip hx).1)
  refine ⟨hnone fun op _ hq => ?_, hnone fun op _ hq => ?_, hnone fun op _ hq => ?_⟩ <;>
  cases op with
  | takeGrant | release | releaseTicket => rfl
  | request | tryRequest | withdraw => cases hq

/-- In a quiet run one caller goes with every slot that is given back, and nobody comes. -/
theorem unfinished_quiet (h : b.Reachable) (hquiet : ∀ op ∈ ops, op.quiet = true) :
    (b.run ops).1.countP Answer.gaveBack + (b.run ops).2.unfinished = b.unfinished := by
  have hlaw := unfinished_run h ops
  obtain ⟨hjoined, harrived, hwithdrawn⟩ := told_quiet (b := b) hquiet
  rw [hjoined, harrived, hwithdrawn] at hlaw
  simpa using hlaw.symm

/-! ### One release -/

theorem quiet_of_gaveBack (h : (b.step op).1.gaveBack = true) : op.quiet = true := by
  cases op with
  | takeGrant | release | releaseTicket => rfl
  | request | tryRequest | withdraw => cases h

theorem unfinished_release (h : b.Reachable) (hgave : (b.step op).1.gaveBack = true) :
    (b.step op).2.unfinished + 1 = b.unfinished := by
  have hquiet : ∀ op' ∈ [op], op'.quiet = true := by
    intro op' hop
    rw [List.mem_singleton.1 hop]
    exact quiet_of_gaveBack hgave
  have hlaw := unfinished_quiet h hquiet
  have hone : (b.run [op]).1.countP Answer.gaveBack = 1 := List.countP_eq_length.2 (by
    intro answer hanswer
    rw [List.mem_singleton.1 hanswer]
    exact hgave)
  rw [hone, Nat.add_comm] at hlaw
  exact hlaw

theorem gaveBack_of_holder (hmem : (t, c) ∈ b.holders)
    (hop : op = .releaseTicket t ∨ op = .release c) : (b.step op).1.gaveBack = true := by
  rcases hop with rfl | rfl
  · obtain ⟨woken, hok⟩ := releaseTicket_ok_iff.2 ⟨c, hmem⟩
    simp only [step, hok]
    rfl
  · cases ho : b.oldestHolder? c with
    | none => exact absurd hmem (oldestHolder?_eq_none_iff.1 ho t)
    | some u =>
      simp only [step, release, ho]
      rfl

/-! ### Who is left -/

theorem isIdle_iff : b.isIdle = true ↔ b.unfinished = 0 := by
  simp only [isIdle, unfinished, Bool.and_eq_true, decide_eq_true_eq]
  omega

theorem holders_ne_nil (h : b.Reachable) (hpos : 0 < b.unfinished) : b.holders ≠ [] := by
  intro hnil
  have hactive : b.active = 0 := by rw [← h.sound.slots.holders_length, hnil, List.length_nil]
  -- nobody waits on an empty bus
  have hqueue : b.queue = [] := by
    refine List.eq_nil_iff_forall_not_mem.2 ?_
    rintro ⟨t, c⟩ hmem
    rw [mem_queue, h.settled.idle hactive c] at hmem
    cases hmem
  have hwaiting : b.totalWaiting = 0 := by rw [← length_queue, hqueue, List.length_nil]
  rw [unfinished, hactive, hwaiting] at hpos
  exact Nat.lt_irrefl _ hpos

/-- Every bus of a run drains. -/
theorem drains_of_unfinished {n : Nat} (h : b.Reachable) (hn : b.unfinished = n) :
    b.Drains n := by
  induction n generalizing b with
  | zero => exact .idle (isIdle_iff.2 hn)
  | succ n ih =>
    refine .busy (holders_ne_nil h (by omega)) (fun _ _ _ => gaveBack_of_holder) ?_
    intro t c op hmem hop
    have hless := unfinished_release h (gaveBack_of_holder hmem hop)
    exact ih (h.step op) (by omega)

theorem woken_of_idle (h : b.Reachable) (hquiet : ∀ op ∈ ops, op.quiet = true)
    (hidle : (b.run ops).2.isIdle = true) (ht : t ∈ b.waiting.get c) :
    ((b.run ops).1.flatMap Answer.woken).count t = 1 := by
  have hlaw := (queue_run h ops).count_eq t
  have hempty : (b.run ops).2.queue = [] := by
    rw [isIdle_iff, unfinished] at hidle
    rw [← List.length_eq_zero_iff, length_queue]
    omega
  obtain ⟨hjoined, -, hwithdrawn⟩ := told_quiet (b := b) hquiet
  rw [hjoined, hwithdrawn, hempty] at hlaw
  simp only [List.map_nil, List.append_nil] at hlaw
  rw [← hlaw]
  exact List.count_eq_one_of_mem h.sound.tickets.queue_tickets_nodup (mem_queue_tickets.2 ⟨c, ht⟩)

/-- **A bus drains.**  On every bus of a run a release that succeeds leaves one caller less, and as
long as a caller is left somebody holds a slot.  So the bus is idle after exactly as many releases
as there are callers, whoever releases and in whatever order.  Operations other than requests and
withdrawals may come in between: the bus is idle exactly once that many slots have been given back,
and then every waiter has been woken exactly once. -/
theorem drained_run (h : b.Reachable) :
    (∀ op, (b.step op).1.gaveBack = true → (b.step op).2.unfinished + 1 = b.unfinished) ∧
      (0 < b.unfinished → b.holders ≠ []) ∧ b.Drains b.unfinished ∧
      ∀ ops : List Op, (∀ op ∈ ops, op.quiet = true) →
        ((b.run ops).2.isIdle = true ↔
            (b.run ops).1.countP Answer.gaveBack = b.unfinished) ∧
          ((b.run ops).2.isIdle = true → ∀ c, ∀ t ∈ b.waiting.get c,
            ((b.run ops).1.flatMap Answer.woken).count t = 1) := by
  refine ⟨fun _ => unfinished_release h, holders_ne_nil h, drains_of_unfinished h rfl, ?_⟩
  intro ops hquiet
  have hlaw := unfinished_quiet h hquiet
  refine ⟨?_, fun hidle _ _ ht => woken_of_idle h hquiet hidle ht⟩
  rw [isIdle_iff]
  omega

/-- A yielding bus with two callers of each direction drains by four releases. -/
theorem drained_run_two_slots : ∃ b ops, Bus.Reachable b ∧
    b.config = ⟨2, .alternate, 1, true⟩ ∧ b.unfinished = 4 ∧
    b.waiting.get ⟨.inbound, .normal⟩ = [2, 3] ∧ (∀ op ∈ ops, op.quiet = true) ∧ b.Drains 4 ∧
    (b.run ops).2.isIdle = true ∧ ((b.run ops).1.flatMap Answer.woken).count 2 = 1 := by
  have hreach : Reachable ((Bus.new ⟨2, .alternate, 1, true⟩).run [.request ⟨.outbound, .normal⟩,
    .request ⟨.outbound, .normal⟩, .request ⟨.inbound, .normal⟩,
    .request ⟨.inbound, .normal⟩]).2 := ⟨by decide, _, rfl⟩
  obtain ⟨-, -, hdrains, hquiet⟩ := drained_run hreach
  obtain ⟨hidle, hwoken⟩ := hquiet [.releaseTicket 1, .release ⟨.outbound, .normal⟩, .takeGrant 2,
    .releaseTicket 3, .release ⟨.inbound, .normal⟩] (by decide)
  have hend := hidle.2 (by decide)
  exact ⟨_, _, hreach, by decide, by decide, by decide, by decide, hdrains, hend,
    hwoken hend ⟨.inbound, .normal⟩ 2 (by decide)⟩

end Bus

end HalfDuplex

import HalfDuplex.Proofs.Balance

/-!
# Every wake-up is told once

The operations that make room answer with the tickets that they let in from the queues.  A caller
that waits relies on these answers: one that is left out sleeps for ever, and one that is told twice
takes a slot that is not its own.

* `Bus.mem_woken_step` : an operation tells of a ticket exactly if the ticket leaves its queue in
  it, other than at its own wish.
* `Bus.Account` : the answers of a run balance for every ticket.
* `Bus.delivered_run` : every ticket that leaves a queue for a slot is told exactly once in a run,
  and its grant can be picked up from then on, once.
-/

namespace HalfDuplex

namespace Bus

variable {b : Bus} {op : Op} {t : Ticket}

/-! ### One operation -/

theorem withdrawn_of_woken {u : Ticket} (h : u ∈ (b.step (.withdraw t)).1.woken) :
    Op.withdrawn? (.withdraw t) (b.step (.withdraw t)).1 = some t := by
  simp only [step] at h ⊢
  cases hw : (b.withdraw t).1 with
  | removed => rfl
  | alreadyAdmitted | unknown =>
    rw [hw] at h
    cases h

/-- **An operation tells of a ticket exactly if the ticket leaves its queue in it**, other than at
its own wish. -/
theorem mem_woken_step (h : b.Reachable) : t ∈ (b.step op).1.woken ↔
    (∃ c, t ∈ b.waiting.get c) ∧ (∀ c, t ∉ (b.step op).2.waiting.get c) ∧ op ≠ .withdraw t := by
  have hlaw := (queue_step h op).count_eq t
  simp only [List.count_append] at hlaw
  have honce := List.nodup_iff_count_le_one.1 h.sound.tickets.queue_tickets_nodup t
  rw [← mem_queue_tickets, ← not_exists, ← mem_queue_tickets]
  constructor
  · intro ht
    have hwoken := List.count_pos_iff.2 ht
    rw [joined_eq_none ht] at hlaw
    simp only [Option.toList_none, List.map_nil, List.count_nil] at hlaw
    -- the ticket is told, so it has left, and nothing remains of it in the queues
    refine ⟨List.count_pos_iff.1 (by omega), fun hmem => ?_, ?_⟩
    · have hstays := List.count_pos_iff.2 hmem
      omega
    · rintro rfl
      rw [withdrawn_of_woken ht, Option.toList_some, List.count_singleton_self] at hlaw
      omega
  · rintro ⟨hbefore, hafter, hop⟩
    have hbefore := List.count_pos_iff.2 hbefore
    have hafter := List.count_eq_zero.2 hafter
    have hnot : (op.withdrawn? (b.step op).1).toList.count t = 0 := by
      refine List.count_eq_zero.2 fun hmem => ?_
      rw [Option.mem_toList] at hmem
      exact hop (eq_withdraw_of_withdrawn hmem)
    exact List.count_pos_iff.1 (by omega)

/-! ### Runs -/

variable {config : Config}

theorem arrivals_nodup (hc : config.valid = true) (ops : List Op) :
    (((Bus.new config).told Op.joined? ops).map Prod.fst ++
      ((Bus.new config).told Op.arrived? ops).map Prod.fst).Nodup := by
  rw [told_eq fun s op => (tells_step s op).joined, told_eq fun s op => (tells_step s op).arrived,
    List.map_filterMap, List.map_filterMap]
  refine (filterMap_perm_append (f := fun m => m.issued?.map Prod.fst)
    (fun m => by cases m <;> rfl) _).nodup_iff.1 ?_
  have hrange := range_issued ((reachable_new hc).legal ops)
  rw [← List.map_filterMap]
  have hzero : List.range (Bus.new config).nextTicket = [] := rfl
  rw [hzero, List.nil_append] at hrange
  rw [hrange]
  exact List.nodup_range

/-- The answers of a run from the empty bus balance for ticket `t`. -/
structure Account (b : Bus) (ops : List Op) (t : Ticket) : Prop where
  /-- It comes at most once, to a queue or to a slot. -/
  once : ((b.told Op.joined? ops).map Prod.fst).count t +
    ((b.told Op.arrived? ops).map Prod.fst).count t ≤ 1
  /-- Once queued, it has been woken or withdrawn, or it waits. -/
  queued : ((b.told Op.joined? ops).map Prod.fst).count t =
    ((b.run ops).1.flatMap Answer.woken).count t + (b.told Op.withdrawn? ops).count t +
      ((b.run ops).2.queue.map Prod.fst).count t
  /-- Once woken, its grant has been picked up, or is there. -/
  woken : ((b.run ops).1.flatMap Answer.woken).count t =
    (b.told Op.collected? ops).count t + (b.run ops).2.granted.count t

theorem account_new (hc : config.valid = true) (ops : List Op) (t : Ticket) :
    (Bus.new config).Account ops t := by
  have hnew := reachable_new hc
  have honce := List.nodup_iff_count_le_one.1 (arrivals_nodup hc ops) t
  have hqueue := (queue_run hnew ops).count_eq t
  have hgrants := (granted_run hnew ops).count_eq t
  have hempty : (Bus.new config).queue = [] := rfl
  have hnone : (Bus.new config).granted = [] := rfl
  rw [hempty, List.map_nil, List.nil_append, List.count_append, List.count_append] at hqueue
  rw [hnone, List.nil_append, List.count_append] at hgrants
  rw [List.count_append] at honce
  exact ⟨honce, hqueue, hgrants⟩

namespace Account

variable {ops : List Op} (h : b.Account ops t)

include h

theorem woken_le_one : ((b.run ops).1.flatMap Answer.woken).count t ≤ 1 := by
  have := h.once
  have := h.queued
  omega

theorem mem_joined (ht : t ∈ (b.run ops).1.flatMap Answer.woken) :
    t ∈ (b.told Op.joined? ops).map Prod.fst ∧ t ∉ (b.told Op.arrived? ops).map Prod.fst := by
  have hwoken := List.count_pos_iff.2 ht
  have honce := h.once
  have hqueued := h.queued
  rw [← List.count_pos_iff, ← List.count_eq_zero]
  omega

/-- A queued ticket has been told once exactly if it has left its queue other than at its wish. -/
theorem woken_iff (ht : t ∈ (b.told Op.joined? ops).map Prod.fst) :
    ((b.run ops).1.flatMap Answer.woken).count t = 1 ↔
      (∀ c, t ∉ (b.run ops).2.waiting.get c) ∧ t ∉ b.told Op.withdrawn? ops := by
  have hjoined := List.count_pos_iff.2 ht
  have honce := h.once
  have hqueued := h.queued
  rw [← not_exists, ← mem_queue_tickets, ← List.count_eq_zero, ← List.count_eq_zero]
  omega

/-- A grant is there exactly if its ticket has been told and it has not been picked up. -/
theorem taken_iff : ((b.run ops).2.takeGrant t).1 = true ↔
    t ∈ (b.run ops).1.flatMap Answer.woken ∧ t ∉ b.told Op.collected? ops := by
  have htake : ((b.run ops).2.takeGrant t).1 = true ↔ t ∈ (b.run ops).2.granted :=
    decide_eq_true_iff
  have hle := h.woken_le_one
  have hwoken := h.woken
  rw [htake, ← List.count_pos_iff, ← List.count_pos_iff, ← List.count_eq_zero]
  omega

end Account

/-- **Every wake-up is told once.**  In a run no ticket is told twice to be woken, and only tickets
that were queued are told, never those admitted on arrival.  A queued ticket has been told once
exactly if it waits no longer and was not withdrawn; the operation that let it in tells it.  A grant
can be picked up exactly if its ticket has been told and the grant has not been picked up before. -/
theorem delivered_run (hc : config.valid = true) (ops : List Op) :
    let b := Bus.new config
    let s := (b.run ops).2
    let woken := (b.run ops).1.flatMap Answer.woken
    woken.Nodup ∧
      (∀ t ∈ woken, ∃ c, (t, c) ∈ b.told Op.joined? ops) ∧
      (∀ t c, (t, c) ∈ b.told Op.arrived? ops → t ∉ woken) ∧
      (∀ t c, (t, c) ∈ b.told Op.joined? ops →
        (woken.count t = 1 ↔
          (∀ c', t ∉ s.waiting.get c') ∧ t ∉ b.told Op.withdrawn? ops)) ∧
      (∀ t op, t ∈ (s.step op).1.woken ↔ (∃ c, t ∈ s.waiting.get c) ∧
        (∀ c, t ∉ (s.step op).2.waiting.get c) ∧ op ≠ .withdraw t) ∧
      ∀ t, (s.takeGrant t).1 = true ↔ t ∈ woken ∧ t ∉ b.told Op.collected? ops := by
  intro b s woken
  have haccount : ∀ t, b.Account ops t := account_new hc ops
  refine ⟨?_, fun t ht => ?_, fun t c ht hmem => ?_, fun t c ht => ?_, fun t op => ?_, fun t => ?_⟩
  · exact List.nodup_iff_count_le_one.2 fun t => (haccount t).woken_le_one
  · obtain ⟨⟨u, c⟩, hu, rfl⟩ := List.mem_map.1 ((haccount t).mem_joined ht).1
    exact ⟨c, hu⟩
  · exact ((haccount t).mem_joined hmem).2 (List.mem_map_of_mem ht)
  · exact (haccount t).woken_iff (List.mem_map_of_mem ht)
  · exact mem_woken_step ((reachable_new hc).run ops)
  · exact (haccount t).taken_iff

/-- Three tickets are queued behind a slot: one is woken and picks up its grant, one is woken and
does not, and one withdraws. -/
theorem delivered_run_one_slot : (⟨1, .alternate, 1, false⟩ : Config).valid = true ∧
    let b := Bus.new ⟨1, .alternate, 1, false⟩
    let ops : List Op := [.request ⟨.outbound, .normal⟩, .request ⟨.outbound, .normal⟩,
      .request ⟨.outbound, .normal⟩, .request ⟨.inbound, .normal⟩, .withdraw 2,
      .releaseTicket 0, .takeGrant 3, .releaseTicket 3]
    (b.run ops).1.flatMap Answer.woken = [3, 1] ∧
      ((b.run ops).1.flatMap Answer.woken).count 1 = 1 ∧
      0 ∉ (b.run ops).1.flatMap Answer.woken ∧
      ((b.run ops).2.takeGrant 1).1 = true ∧ ¬ ((b.run ops).2.takeGrant 3).1 = true := by
  have hvalid : (⟨1, .alternate, 1, false⟩ : Config).valid = true := by decide
  refine ⟨hvalid, by decide, ?_⟩
  obtain ⟨-, -, harrived, hqueued, -, htake⟩ := delivered_run hvalid
    [.request ⟨.outbound, .normal⟩, .request ⟨.outbound, .normal⟩,
      .request ⟨.outbound, .normal⟩, .request ⟨.inbound, .normal⟩, .withdraw 2,
      .releaseTicket 0, .takeGrant 3, .releaseTicket 3]
  refine ⟨?_, ?_, ?_, ?_⟩
  · refine (hqueued 1 ⟨.outbound, .normal⟩ (by decide)).2 ⟨?_, by decide⟩
    rintro ⟨d, p⟩
    cases d <;> cases p <;> decide
  · exact harrived 0 ⟨.outbound, .normal⟩ (by decide)
  · exact (htake 1).2 (by decide)
  · exact fun h => ((htake 3).1 h).2 (by decide)

end Bus

end HalfDuplex

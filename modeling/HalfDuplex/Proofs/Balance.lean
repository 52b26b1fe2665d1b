import HalfDuplex.Proofs.Life
import Mathlib.Data.List.Perm.Basic

/-!
# What enters and what leaves

A bus keeps tickets in three places: its queues, its grants and its slots.  Each of them has a law
of conservation: what was there and what enters is, counted with multiplicity, what leaves and what
is there afterwards.

* `Bus.queue` : all waiters with their cells.
* `Bus.Booked` : the tickets of a bus are kept apart, and nobody has two grants.
* `Bus.balance_performAll` : a law that holds of every legal move holds of a row of them.
* `Bus.queue_performAll`, `Bus.granted_performAll`, `Bus.holders_performAll` : the three laws.
* `Bus.tells_step` : the answer of an operation tells what enters and leaves in its moves.
* `Bus.told` : what the operations and answers of a run tell.
* `Bus.queue_run`, `Bus.granted_run` : the laws of the queues and of the grants for runs, in terms
  of what the answers tell.

Who boards leaves the queues, has a grant and holds a slot: what leaves one place enters the next.
So the laws together follow every ticket through any run.
-/

namespace HalfDuplex

/-- The members of four lists, each with the cell of its list. -/
def PerCell.entries {α : Type} (f : PerCell (List α)) : List (α × Cell) :=
  Cell.all.flatMap fun c => (f.get c).map fun a => (a, c)

namespace PerCell

variable {α : Type}

theorem mem_entries {f : PerCell (List α)} {a : α} {c : Cell} :
    (a, c) ∈ f.entries ↔ a ∈ f.get c := by
  simp [entries, Cell.mem_all]

theorem length_entries (f : PerCell (List α)) : f.entries.length = (f.map List.length).sum := by
  simp only [entries, Cell.all, List.flatMap_cons, List.flatMap_nil, List.length_append,
    List.length_map, List.length_nil, PerCell.sum, PerCell.map, PerCell.get]
  omega

theorem count_entries [DecidableEq α] (f : PerCell (List α)) (a : α) (c : Cell) :
    f.entries.count (a, c) = (f.get c).count a := by
  have hone : ∀ c', ((f.get c').map fun x => (x, c')).count (a, c) =
      if c' = c then (f.get c).count a else 0 := by
    intro c'
    split_ifs with hc
    · subst hc
      exact List.count_map_of_injective _ (fun x => (x, c')) (fun x y h => (Prod.mk.inj h).1) a
    · refine List.count_eq_zero.2 fun hmem => ?_
      obtain ⟨x, -, hx⟩ := List.mem_map.1 hmem
      exact hc (Prod.mk.inj hx).2
  obtain ⟨d, p⟩ := c
  cases d <;> cases p <;> simp [entries, Cell.all, List.count_append, hone]

theorem entries_set [DecidableEq α] (f : PerCell (List α)) (c : Cell) {l : List α}
    (gained lost : List α) (h : (f.get c ++ gained).Perm (lost ++ l)) :
    (f.entries ++ gained.map fun a => (a, c)).Perm
      ((lost.map fun a => (a, c)) ++ (f.set c l).entries) := by
  have hinj : Function.Injective fun a : α => (a, c) := fun x y hxy => (Prod.mk.inj hxy).1
  rw [List.perm_iff_count]
  rintro ⟨a, c'⟩
  have hcount := h.count_eq a
  simp only [List.count_append, count_entries, get_set] at hcount ⊢
  by_cases hc : c' = c
  · subst hc
    rw [if_pos rfl, List.count_map_of_injective _ _ hinj, List.count_map_of_injective _ _ hinj]
    exact hcount
  · have hnone : ∀ l : List α, (l.map fun a => (a, c)).count (a, c') = 0 := by
      intro l
      refine List.count_eq_zero.2 fun hmem => ?_
      obtain ⟨x, -, hx⟩ := List.mem_map.1 hmem
      exact hc (Prod.mk.inj hx).2.symm
    rw [if_neg hc, hnone, hnone, Nat.zero_add, Nat.add_zero]

end PerCell

/-- The ticket that an operation put into a queue, with its cell, as the answer tells. -/
def Op.joined? : Op → Answer → Option (Ticket × Cell)
  | .request c, .request (.queued t) => some (t, c)
  | _, _ => none

/-- The ticket that an operation took out of its queue at its own wish, as the answer tells. -/
def Op.withdrawn? : Op → Answer → Option Ticket
  | .withdraw t, .withdraw (.removed _) => some t
  | _, _ => none

/-- The ticket whose grant an operation picked up, as the answer tells. -/
def Op.collected? : Op → Answer → Option Ticket
  | .takeGrant t, .takeGrant true => some t
  | _, _ => none

/-- The ticket that an operation admitted on arrival, with its cell, as the answer tells. -/
def Op.arrived? : Op → Answer → Option (Ticket × Cell)
  | .request c, .request (.admitted t) => some (t, c)
  | .tryRequest c, .tryRequest (some t) => some (t, c)
  | _, _ => none

/-- A slot was given back. -/
def Answer.gaveBack : Answer → Bool
  | .released _ => true
  | _ => false

namespace Bus

namespace Move

/-- The ticket that joins a queue, with its cell. -/
def joined? : Move → Option (Ticket × Cell)
  | enqueue t c => some (t, c)
  | _ => none

/-- The ticket that takes a slot on arrival, with its cell. -/
def arrived? : Move → Option (Ticket × Cell)
  | arrive t c => some (t, c)
  | _ => none

/-- The ticket that goes from its queue, to a slot or away, with its cell. -/
def departed? : Move → Option (Ticket × Cell)
  | board t c _ => some (t, c)
  | leave t c => some (t, c)
  | _ => none

/-- The ticket that leaves its queue without a slot. -/
def withdrawn? : Move → Option Ticket
  | leave t _ => some t
  | _ => none

/-- The ticket whose grant is picked up. -/
def collected? : Move → Option Ticket
  | collect t => some t
  | _ => none

/-- The ticket that gives back its slot, with its cell. -/
def vacated? : Move → Option (Ticket × Cell)
  | vacate t c => some (t, c)
  | _ => none

end Move

/-- The tickets that wait, with their cells. -/
def queue (b : Bus) : List (Ticket × Cell) := b.waiting.entries

/-- The tickets of a bus are kept apart, and nobody has two grants. -/
structure Booked (b : Bus) : Prop where
  sound : b.Sound
  granted_nodup : b.granted.Nodup

variable {b : Bus} {m : Move} {ms : List Move} {op : Op} {t : Ticket} {c : Cell}

theorem mem_queue : (t, c) ∈ b.queue ↔ t ∈ b.waiting.get c := PerCell.mem_entries

theorem mem_queue_tickets : t ∈ b.queue.map Prod.fst ↔ ∃ c, t ∈ b.waiting.get c := by
  simp [mem_queue]

theorem length_queue (b : Bus) : b.queue.length = b.totalWaiting := PerCell.length_entries _

theorem TicketsFit.queue_tickets_nodup (h : b.TicketsFit) : (b.queue.map Prod.fst).Nodup := by
  have hmap : b.queue.map Prod.fst = Cell.all.flatMap fun c => b.waiting.get c := by
    simp [queue, PerCell.entries, List.map_flatMap, Function.comp_def]
  have hcells : Cell.all.Nodup := by decide
  rw [hmap, List.nodup_flatMap]
  refine ⟨fun c _ => h.queue_nodup c, hcells.imp fun hne t ht ht' => ?_⟩
  exact hne (h.one_queue ht ht')

theorem filter_ne_eq_erase {l : List Ticket} (hl : l.Nodup) (t : Ticket) :
    l.filter (· ≠ t) = l.erase t := by
  rw [hl.erase_eq_filter]
  refine List.filter_congr fun u _ => ?_
  by_cases hu : u = t <;> simp [hu]

/-! ### One move -/

theorem Booked.perform (h : b.Booked) (hm : b.Legal m) : (b.perform m).Booked := by
  refine ⟨h.sound.perform hm, ?_⟩
  have hg := h.granted_nodup
  rw [granted_perform]
  cases hm with
  | board hf =>
    have hnot : _ ∉ b.granted := h.sound.tickets.not_granted hf.mem
    exact List.nodup_cons.2 ⟨hnot, hg⟩
  | collect => exact hg.filter _
  | arrive | enqueue | vacate | leave | refuse => exact hg

theorem queue_perform (hm : b.Legal m) :
    (b.queue ++ m.joined?.toList).Perm (m.departed?.toList ++ (b.perform m).queue) := by
  have hq : (b.perform m).queue = (b.perform m).waiting.entries := rfl
  rw [hq, waiting_perform]
  cases hm with
  | @enqueue c =>
    exact b.waiting.entries_set c [b.nextTicket] [] (List.Perm.refl _)
  | @board t c why hf =>
    refine b.waiting.entries_set c [] [t] ?_
    rw [List.append_nil, List.singleton_append, ← hf.head]
  | @leave t c _ hmem =>
    refine b.waiting.entries_set c [] [t] ?_
    rw [List.append_nil]
    exact List.perm_cons_erase hmem
  | arrive | collect | vacate | refuse => exact List.Perm.of_eq (List.append_nil _)

theorem granted_perform_perm (h : b.Booked) (hm : b.Legal m) :
    (b.granted ++ m.boarded?.toList).Perm (m.collected?.toList ++ (b.perform m).granted) := by
  rw [granted_perform]
  cases hm with
  | @board t c why => exact List.perm_append_singleton t b.granted
  | @collect t _ hmem =>
    have hsplit : b.granted.Perm (t :: b.granted.filter (· ≠ t)) := by
      rw [filter_ne_eq_erase h.granted_nodup]
      exact List.perm_cons_erase hmem
    exact (List.Perm.of_eq (List.append_nil _)).trans hsplit
  | arrive | enqueue | vacate | leave | refuse => exact List.Perm.of_eq (List.append_nil _)

theorem holders_perform_perm (h : b.Booked) (hm : b.Legal m) :
    (b.holders ++ m.admitted?.toList).Perm (m.vacated?.toList ++ (b.perform m).holders) := by
  rw [holders_perform]
  cases hm with
  | @arrive c => exact List.perm_append_singleton (b.nextTicket, c) b.holders
  | @board t c why => exact List.perm_append_singleton (t, c) b.holders
  | @vacate t c _ hmem =>
    have hfilter := filter_ticket_eq_erase h.sound.tickets.holders_nodup hmem
    have hsplit : b.holders.Perm ((t, c) :: b.holders.filter fun x => x.1 ≠ t) := by
      rw [hfilter]
      exact List.perm_cons_erase hmem
    exact (List.Perm.of_eq (List.append_nil _)).trans hsplit
  | enqueue | collect | leave | refuse => exact List.Perm.of_eq (List.append_nil _)

/-! ### Rows of moves -/

theorem Booked.performAll (h : b.Booked) (hms : ∀ m ∈ b.moments ms, m.Legal) :
    (b.performAll ms).Booked :=
  (kept_performAll (fun _ _ _ hm hs => hs.perform hm) h.sound h hms).2

theorem count_filterMap_cons {α β : Type} [DecidableEq α] (f : β → Option α) (m : β) (ms : List β)
    (x : α) :
    ((m :: ms).filterMap f).count x = (f m).toList.count x + (ms.filterMap f).count x := by
  cases hf : f m with
  | none => simp [hf]
  | some y => simp [hf, List.count_cons, Nat.add_comm]

theorem filterMap_perm_append {α β : Type} [DecidableEq α] {f g g' : β → Option α}
    (h : ∀ m, (f m).toList = (g m).toList ++ (g' m).toList) (ms : List β) :
    (ms.filterMap f).Perm (ms.filterMap g ++ ms.filterMap g') := by
  rw [List.perm_iff_count]
  intro x
  induction ms with
  | nil => rfl
  | cons m ms ih =>
    rw [List.count_append] at ih ⊢
    rw [count_filterMap_cons, count_filterMap_cons, count_filterMap_cons, h, List.count_append]
    omega

theorem departed_perm (ms : List Move) : ((ms.filterMap Move.departed?).map Prod.fst).Perm
    (ms.filterMap Move.boarded? ++ ms.filterMap Move.withdrawn?) := by
  rw [List.map_filterMap]
  exact filterMap_perm_append (fun m => by cases m <;> rfl) ms

theorem admitted_perm (ms : List Move) : ((ms.filterMap Move.admitted?).map Prod.fst).Perm
    ((ms.filterMap Move.arrived?).map Prod.fst ++ ms.filterMap Move.boarded?) := by
  rw [List.map_filterMap, List.map_filterMap]
  exact filterMap_perm_append (fun m => by cases m <;> rfl) ms

/-- **Conservation.**  If every legal move keeps the balance between what a part of the bus gains
and what it loses, a row of legal moves keeps it. -/
theorem balance_performAll {α : Type} [DecidableEq α] {part : Bus → List α}
    {gain loss : Move → Option α}
    (hmove : ∀ s m, s.Booked → s.Legal m →
      (part s ++ (gain m).toList).Perm ((loss m).toList ++ part (s.perform m)))
    (h : b.Booked) (hms : ∀ m ∈ b.moments ms, m.Legal) :
    (part b ++ ms.filterMap gain).Perm (ms.filterMap loss ++ part (b.performAll ms)) := by
  induction ms generalizing b with
  | nil => simp
  | cons m ms ih =>
    rw [moments_cons, List.forall_mem_cons] at hms
    obtain ⟨hm, hms⟩ := hms
    have hfirst := hmove b m h hm
    have hrest := ih (h.perform hm) hms
    rw [List.perm_iff_count] at hfirst hrest ⊢
    intro x
    have h1 := hfirst x
    have h2 := hrest x
    simp only [List.count_append, count_filterMap_cons, performAll_cons] at h1 h2 ⊢
    omega

theorem queue_performAll (h : b.Booked) (hms : ∀ m ∈ b.moments ms, m.Legal) :
    (b.queue ++ ms.filterMap Move.joined?).Perm
      (ms.filterMap Move.departed? ++ (b.performAll ms).queue) :=
  balance_performAll (fun _ _ _ hm => queue_perform hm) h hms

theorem granted_performAll (h : b.Booked) (hms : ∀ m ∈ b.moments ms, m.Legal) :
    (b.granted ++ ms.filterMap Move.boarded?).Perm
      (ms.filterMap Move.collected? ++ (b.performAll ms).granted) :=
  balance_performAll (fun _ _ hs hm => granted_perform_perm hs hm) h hms

theorem holders_performAll (h : b.Booked) (hms : ∀ m ∈ b.moments ms, m.Legal) :
    (b.holders ++ ms.filterMap Move.admitted?).Perm
      (ms.filterMap Move.vacated? ++ (b.performAll ms).holders) :=
  balance_performAll (fun _ _ hs hm => holders_perform_perm hs hm) h hms

/-! ### What the answers tell -/

theorem filterMap_dispatchMoves_eq_nil {α : Type} {f : Move → Option α}
    (hf : ∀ t c why, f (.board t c why) = none) (b : Bus) : b.dispatchMoves.filterMap f = [] := by
  refine List.filterMap_eq_nil_iff.2 fun m hm => ?_
  obtain ⟨t, c, why, rfl⟩ := board_of_mem_dispatchMoves hm
  exact hf t c why

/-- The answer of an operation tells what its moves do. -/
structure Tells (op : Op) (answer : Answer) (ms : List Move) : Prop where
  arrived : (op.arrived? answer).toList = ms.filterMap Move.arrived?
  joined : (op.joined? answer).toList = ms.filterMap Move.joined?
  withdrawn : (op.withdrawn? answer).toList = ms.filterMap Move.withdrawn?
  collected : (op.collected? answer).toList = ms.filterMap Move.collected?
  gaveBack : answer.gaveBack.toNat = (ms.filterMap Move.vacated?).length

theorem tells_departure {op : Op} {answer : Answer} {m : Move} (s : Bus)
    (h : Tells op answer [m]) : Tells op answer (m :: s.dispatchMoves) := by
  have hrest : ∀ {α : Type} {f : Move → Option α}, (∀ t c why, f (.board t c why) = none) →
      (m :: s.dispatchMoves).filterMap f = [m].filterMap f := by
    intro α f hf
    rw [← List.singleton_append, List.filterMap_append, filterMap_dispatchMoves_eq_nil hf,
      List.append_nil]
  constructor
  case arrived => rw [h.arrived, hrest fun _ _ _ => rfl]
  case joined => rw [h.joined, hrest fun _ _ _ => rfl]
  case withdrawn => rw [h.withdrawn, hrest fun _ _ _ => rfl]
  case collected => rw [h.collected, hrest fun _ _ _ => rfl]
  case gaveBack => rw [h.gaveBack, hrest fun _ _ _ => rfl]

theorem tells_step (b : Bus) (op : Op) : Tells op (b.step op).1 (b.moves op) := by
  cases op with
  | request c =>
    simp only [step, request, moves]
    split_ifs
    · exact ⟨rfl, rfl, rfl, rfl, rfl⟩
    · exact ⟨rfl, rfl, rfl, rfl, rfl⟩
  | tryRequest c =>
    simp only [step, tryRequest, moves]
    split_ifs
    · exact ⟨rfl, rfl, rfl, rfl, rfl⟩
    · exact ⟨rfl, rfl, rfl, rfl, rfl⟩
  | takeGrant t =>
    simp only [step, takeGrant, moves]
    split_ifs with h
    · simp only [h, decide_true]
      exact ⟨rfl, rfl, rfl, rfl, rfl⟩
    · simp only [h, decide_false]
      exact ⟨rfl, rfl, rfl, rfl, rfl⟩
  | release c =>
    cases h : b.oldestHolder? c with
    | none =>
      simp only [step, release, moves, h]
      exact ⟨rfl, rfl, rfl, rfl, rfl⟩
    | some t =>
      simp only [step, release, moves, h]
      exact tells_departure _ ⟨rfl, rfl, rfl, rfl, rfl⟩
  | releaseTicket t =>
    cases h : b.cellOf? t with
    | none =>
      simp only [step, releaseTicket, moves, h]
      exact ⟨rfl, rfl, rfl, rfl, rfl⟩
    | some c =>
      simp only [step, releaseTicket, moves, h]
      exact tells_departure _ ⟨rfl, rfl, rfl, rfl, rfl⟩
  | withdraw t =>
    cases h : b.queueOf? t with
    | none =>
      simp only [step, withdraw, moves, h]
      split_ifs
      · exact ⟨rfl, rfl, rfl, rfl, rfl⟩
      · exact ⟨rfl, rfl, rfl, rfl, rfl⟩
    | some c =>
      simp only [step, withdraw, moves, h]
      exact tells_departure _ ⟨rfl, rfl, rfl, rfl, rfl⟩

/-! ### Runs -/

/-- What the operations and answers of a run tell. -/
def told {α : Type} (b : Bus) (f : Op → Answer → Option α) (ops : List Op) : List α :=
  (ops.zip (b.run ops).1).filterMap fun x => f x.1 x.2

theorem told_cons {α : Type} (b : Bus) (f : Op → Answer → Option α) (op : Op) (ops : List Op) :
    b.told f (op :: ops) = (f op (b.step op).1).toList ++ (b.step op).2.told f ops := by
  unfold told
  cases h : f op (b.step op).1 with
  | none => exact List.filterMap_cons_none h
  | some x => exact List.filterMap_cons_some h

/-- A run tells of its moves what its operations tell of theirs. -/
theorem told_eq {α : Type} {f : Op → Answer → Option α} {g : Move → Option α}
    (hstep : ∀ (s : Bus) op, (f op (s.step op).1).toList = (s.moves op).filterMap g) (b : Bus)
    (ops : List Op) : b.told f ops = (b.trace ops).filterMap g := by
  induction ops generalizing b with
  | nil => rfl
  | cons op ops ih => rw [told_cons, trace, List.filterMap_append, hstep, ih]

/-- A run tells by as many answers as its moves tell what each operation tells by its own. -/
theorem countP_run {α : Type} {p : Answer → Bool} {f : Move → Option α}
    (hstep : ∀ (s : Bus) op, (p (s.step op).1).toNat = ((s.moves op).filterMap f).length) (b : Bus)
    (ops : List Op) : (b.run ops).1.countP p = ((b.trace ops).filterMap f).length := by
  induction ops generalizing b with
  | nil => rfl
  | cons op ops ih =>
    have hanswers : (b.run (op :: ops)).1 = (b.step op).1 :: ((b.step op).2.run ops).1 := rfl
    rw [hanswers, List.countP_cons, ih, trace, List.filterMap_append, List.length_append, ← hstep,
      Nat.add_comm]
    cases p (b.step op).1 <;> rfl

/-- The woken tickets of a run are those that its moves take from a queue to a slot. -/
theorem woken_run (b : Bus) (ops : List Op) :
    (b.run ops).1.flatMap Answer.woken = (b.trace ops).filterMap Move.boarded? := by
  induction ops generalizing b with
  | nil => rfl
  | cons op ops ih =>
    rw [trace, List.filterMap_append, ← woken_step, ← ih]
    rfl

theorem run_append (b : Bus) (ops ops' : List Op) :
    (b.run (ops ++ ops')).2 = ((b.run ops).2.run ops').2 := by
  induction ops generalizing b with
  | nil => rfl
  | cons op ops ih => exact ih (b.step op).2

theorem Reachable.run (h : b.Reachable) (ops : List Op) : (b.run ops).2.Reachable := by
  obtain ⟨hc, ops₀, hrun⟩ := h
  rw [Reachable, config_run]
  refine ⟨hc, ops₀ ++ ops, ?_⟩
  rw [run_append, hrun]

theorem booked_new {config : Config} (hc : config.valid = true) : (Bus.new config).Booked :=
  ⟨sound_new hc, List.nodup_nil⟩

theorem Reachable.booked (h : b.Reachable) : b.Booked := by
  obtain ⟨hc, ops, hrun⟩ := h
  rw [← hrun, run_eq_performAll]
  exact (booked_new hc).performAll (legal_trace (sound_new hc) (settled_new _) ops).1

theorem Reachable.legal (h : b.Reachable) (ops : List Op) :
    ∀ m ∈ b.moments (b.trace ops), m.Legal :=
  fun m hm => (h.history ops m hm).1

/-- **The law of the queues.**  Who waits before a run or joins a queue in it is woken, withdraws or
waits after it. -/
theorem queue_run (h : b.Reachable) (ops : List Op) :
    (b.queue.map Prod.fst ++ (b.told Op.joined? ops).map Prod.fst).Perm
      ((b.run ops).1.flatMap Answer.woken ++ b.told Op.withdrawn? ops ++
        (b.run ops).2.queue.map Prod.fst) := by
  have hlaw := (queue_performAll h.booked (h.legal ops)).map Prod.fst
  rw [List.map_append, List.map_append, ← run_eq_performAll] at hlaw
  rw [woken_run, told_eq fun s op => (tells_step s op).joined,
    told_eq fun s op => (tells_step s op).withdrawn]
  exact hlaw.trans ((departed_perm _).append_right _)

/-- **The law of the grants.**  Who has a grant before a run or is woken in it picks its grant up or
has it after it. -/
theorem granted_run (h : b.Reachable) (ops : List Op) :
    (b.granted ++ (b.run ops).1.flatMap Answer.woken).Perm
      (b.told Op.collected? ops ++ (b.run ops).2.granted) := by
  have hlaw := granted_performAll h.booked (h.legal ops)
  rw [← run_eq_performAll] at hlaw
  rwa [woken_run, told_eq fun s op => (tells_step s op).collected]

/-! ### One operation -/

theorem run_singleton (b : Bus) (op : Op) :
    (b.run [op]).1.flatMap Answer.woken = (b.step op).1.woken := List.append_nil _

theorem told_singleton {α : Type} (b : Bus) (f : Op → Answer → Option α) (op : Op) :
    b.told f [op] = (f op (b.step op).1).toList := by
  rw [told_cons]
  exact List.append_nil _

theorem Reachable.step (h : b.Reachable) (op : Op) : (b.step op).2.Reachable := h.run [op]

theorem queue_step (h : b.Reachable) (op : Op) :
    (b.queue.map Prod.fst ++ (op.joined? (b.step op).1).toList.map Prod.fst).Perm
      ((b.step op).1.woken ++ (op.withdrawn? (b.step op).1).toList ++
        (b.step op).2.queue.map Prod.fst) := by
  have hlaw := queue_run h [op]
  rwa [run_singleton, told_singleton, told_singleton] at hlaw

theorem granted_step (h : b.Reachable) (op : Op) :
    (b.granted ++ (b.step op).1.woken).Perm
      ((op.collected? (b.step op).1).toList ++ (b.step op).2.granted) := by
  have hlaw := granted_run h [op]
  rwa [run_singleton, told_singleton] at hlaw

theorem waiters_step (h : b.Reachable) (op : Op) :
    (b.queue ++ (op.joined? (b.step op).1).toList).Perm
      ((b.moves op).filterMap Move.departed? ++ (b.step op).2.queue) := by
  rw [(tells_step b op).joined, step_eq_performAll]
  exact queue_performAll h.booked (legal_moves h.sound h.settled op).1

theorem holders_step (h : b.Reachable) (op : Op) :
    (b.holders ++ (b.moves op).filterMap Move.admitted?).Perm
      ((b.moves op).filterMap Move.vacated? ++ (b.step op).2.holders) := by
  rw [step_eq_performAll]
  exact holders_performAll h.booked (legal_moves h.sound h.settled op).1

theorem joined_eq_none {answer : Answer} (h : t ∈ answer.woken) : op.joined? answer = none := by
  cases answer with
  | released | withdraw => cases op <;> rfl
  | request | tryRequest | takeGrant | refused => cases h

theorem eq_withdraw_of_withdrawn {answer : Answer} (h : op.withdrawn? answer = some t) :
    op = .withdraw t := by
  cases op with
  | withdraw u =>
    cases answer with
    | withdraw w =>
      cases w with
      | removed =>
        cases h
        rfl
      | alreadyAdmitted | unknown => cases h
    | request | tryRequest | takeGrant | released | refused => cases h
  | request | tryRequest | takeGrant | release | releaseTicket => cases h

end Bus

end HalfDuplex

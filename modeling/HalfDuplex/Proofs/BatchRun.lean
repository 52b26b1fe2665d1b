import HalfDuplex.Proofs.Consistent
import HalfDuplex.Proofs.Members
import HalfDuplex.Proofs.Tasks

/-!
# Every batch runs clean

The watch beside the bus sees a task between two of its steps: after it was admitted and before it
gives its slot back.  So its picture lags behind that of the bus, and never shows more than the bus
has let in.

* `Batch.Watched` : the watch has counted the members that are inside and has seen nothing wrong.
* `Batch.Traced` : the trace tells of every member what it has done.
* `Batch.Turn.watched`, `Batch.Turn.traced` : every step keeps it so.
* `Batch.Flawless` : what the report of a batch that is done says.
* `Batch.plan_eq` : which workloads have room for their tasks.
* `Batch.flawless_run` : in every order of steps somebody has a step to make until all are done, the
  watch counts no violation, and the report is flawless.
-/

namespace HalfDuplex

namespace Member

/-- The slot of a member that is on the bus. -/
def inside? (m : Member) : Option (Ticket × Cell) :=
  match m.phase with
  | .inside t _ => some (t, m.task.cell)
  | _ => none

/-- The slot of a member that has one and is not on the bus. -/
def outside? (m : Member) : Option (Ticket × Cell) :=
  match m.phase with
  | .admitted t _ | .leaving t _ => some (t, m.task.cell)
  | _ => none

/-- What was seen of a member. -/
def passages (m : Member) : List Passage :=
  match m.phase with
  | .inside _ _ => [.enter]
  | .leaving _ _ | .done _ | .failed _ => [.enter, .leave]
  | _ => []

theorem slot?_toList (m : Member) : m.slot?.toList = m.inside?.toList ++ m.outside?.toList := by
  unfold slot? inside? outside?
  cases m.phase <;> rfl

end Member

namespace Batch

/-- The watch has counted the members that are inside and has seen nothing wrong. -/
structure Watched (b : Batch) : Prop where
  capacity : b.watch.capacity = b.bus.config.capacity
  inside : b.watch.inside = (b.members.filterMap Member.inside?).length
  direction : ∀ x ∈ b.members.filterMap Member.inside?, b.watch.direction = some x.2.direction
  /-- The watch never saw more than the bus had let in. -/
  peak : b.watch.seen.peak ≤ b.bus.stats.peakActive
  room : b.watch.seen.capacityViolations = 0
  oneWay : b.watch.seen.directionViolations = 0

/-- The trace tells of every member what it has done, and of nobody else. -/
structure Traced (b : Batch) : Prop where
  ids : ∀ {j : Nat} {m : Member}, b.members[j]? = some m → m.task.id = j
  passages : ∀ {j : Nat} {m : Member}, b.members[j]? = some m →
    (b.watch.seen.trace.filter (·.task = j)).map TraceEvent.kind = m.passages
  known : ∀ e ∈ b.watch.seen.trace, e.task < b.members.length

/-- What the report of a batch of `n` tasks says when all are done. -/
structure Flawless (r : Report) (n capacity : Nat) : Prop where
  clean : r.isClean = .ok true
  tasks : r.tasks = n
  /-- Every task came in once. -/
  order : r.admissionOrder.Perm (List.range n)
  /-- Every task came and then went. -/
  passages : ∀ i < n, (r.trace.filter (·.task = i)).map TraceEvent.kind = [.enter, .leave]
  known : ∀ e ∈ r.trace, e.task < n
  peak : r.peakConcurrency ≤ r.bus.stats.peakActive
  peak_le : r.bus.stats.peakActive ≤ capacity
  admissions : r.bus.stats.admissions = n
  waited_length : r.waited.length = n
  waited : r.waited.count true = r.bus.stats.queued
  idle : r.bus.isIdle = .ok true

variable {b b' : Batch} {i : Nat} {m : Member} {time : Nat} {t : Ticket} {waited : Bool}

/-! ### The watch -/

/-- Who is about to come in finds fewer inside than there are slots held. -/
theorem Manned.inside_lt (h : b.Manned) (hi : b.members[i]? = some m)
    (hp : m.phase = .admitted t waited) :
    (b.members.filterMap Member.inside?).length + 1 ≤ b.bus.active := by
  have hslots := h.reachable.sound.slots
  have hsplit := (Bus.filterMap_perm_append Member.slot?_toList b.members).length_eq
  have hout : (t, m.task.cell) ∈ b.members.filterMap Member.outside? :=
    List.mem_filterMap.2 ⟨m, List.mem_of_getElem? hi, by rw [Member.outside?, hp]⟩
  have hpos := List.length_pos_of_mem hout
  have hinHand := h.slots.length_eq
  have hle : b.bus.inHand.length ≤ b.bus.holders.length := List.length_filter_le _ _
  rw [List.length_append] at hsplit
  rw [← hslots.holders_length]
  omega

theorem Manned.direction_eq (h : b.Manned) {x y : Ticket × Cell}
    (hx : x ∈ b.members.filterMap Member.slot?) (hy : y ∈ b.members.filterMap Member.slot?) :
    x.2.direction = y.2.direction := by
  have hcurrent : ∀ z ∈ b.members.filterMap Member.slot?,
      b.bus.current = some z.2.direction := fun z hz =>
    h.reachable.sound.slots.current_of_holder z (Bus.mem_inHand.1 (h.slots.subset hz)).1
  exact Option.some.inj ((hcurrent x hx).symm.trans (hcurrent y hy))

theorem mem_slots_of_inside {x : Ticket × Cell} (hx : x ∈ b.members.filterMap Member.inside?) :
    x ∈ b.members.filterMap Member.slot? :=
  (Bus.filterMap_perm_append Member.slot?_toList b.members).symm.subset
    (List.mem_append_left _ hx)

theorem Watched.onBus (h : b.Watched) (hi : b.members[i]? = some m) (op : Op) (phase : Phase)
    (hin : Member.inside? { m with phase := phase } = m.inside?) :
    (b.onBus op i m phase).Watched := by
  have hsame : (b.onBus op i m phase).members.filterMap Member.inside? =
      b.members.filterMap Member.inside? := filterMap_set_of_eq hi hin
  constructor
  case capacity => exact h.capacity.trans (Bus.config_step b.bus op ▸ rfl)
  case inside =>
    rw [hsame]
    exact h.inside
  case direction =>
    rw [hsame]
    exact h.direction
  case peak => exact Nat.le_trans h.peak (Bus.peakActive_step b.bus op)
  case room => exact h.room
  case oneWay => exact h.oneWay

/-- Who comes in finds room, and nobody of the other direction inside. -/
theorem Watched.enter (h : b.Watched) (hm : b.Manned) (hi : b.members[i]? = some m)
    (hp : m.phase = .admitted t waited) (time : Nat) :
    ({ b with watch := b.watch.enter m.visitor time }.advance i m (.inside t waited)).Watched := by
  have hlaw := filterMap_set Member.inside? hi { m with phase := .inside t waited }
  have hnone : m.inside? = none := by rw [Member.inside?, hp]
  rw [hnone, Option.toList_none, List.nil_append] at hlaw
  have hslot : (t, m.task.cell) ∈ b.members.filterMap Member.slot? :=
    List.mem_filterMap.2 ⟨m, List.mem_of_getElem? hi, by rw [Member.slot?, hp]⟩
  have hroom := hm.inside_lt hi hp
  have hpeak := hm.reachable.peak
  rw [← h.inside] at hroom
  constructor
  case capacity => exact h.capacity
  case inside =>
    have hlength := hlaw.length_eq
    rw [List.length_append, ← h.inside] at hlength
    exact hlength
  case direction =>
    intro x hx
    refine congrArg some ?_
    rcases List.mem_append.1 (hlaw.symm.subset hx) with hold | hnew
    · exact hm.direction_eq hslot (mem_slots_of_inside hold)
    · rw [List.mem_singleton.1 hnew]
      rfl
  case peak => exact Nat.max_le.2 ⟨h.peak, Nat.le_trans hroom hpeak.active_le⟩
  case room =>
    have hfree : b.watch.isFull = false := by
      have hcapacity := hm.reachable.sound.slots.active_le
      rw [Occupancy.isFull, h.capacity, decide_eq_false_iff_not]
      omega
    simp only [advance, Occupancy.enter, h.room, hfree]
    rfl
  case oneWay =>
    have hagree : b.watch.clashes m.visitor.cell.direction = false := by
      by_contra hclash
      simp only [Occupancy.clashes, Bool.not_eq_false, Bool.and_eq_true,
        decide_eq_true_eq] at hclash
      obtain ⟨hpos, hne⟩ := hclash
      rw [h.inside] at hpos
      obtain ⟨x, hx⟩ := List.exists_mem_of_length_pos hpos
      refine hne ?_
      rw [h.direction x hx, hm.direction_eq (mem_slots_of_inside hx) hslot]
      rfl
    simp only [advance, Occupancy.enter, h.oneWay, hagree]
    rfl

theorem Watched.leave (h : b.Watched) (hi : b.members[i]? = some m)
    (hp : m.phase = .inside t waited) (time : Nat) :
    ({ b with watch := b.watch.leave m.visitor time }.advance i m (.leaving t waited)).Watched := by
  have hlaw := filterMap_set Member.inside? hi { m with phase := .leaving t waited }
  have hinside : m.inside? = some (t, m.task.cell) := by rw [Member.inside?, hp]
  have hnone : Member.inside? { m with phase := .leaving t waited } = none := rfl
  rw [hinside, hnone, Option.toList_none, List.append_nil] at hlaw
  have hlength := hlaw.length_eq
  rw [← h.inside, List.length_append, Option.toList_some, List.length_singleton] at hlength
  constructor
  case capacity => exact h.capacity
  case inside =>
    simp only [advance, Occupancy.leave]
    omega
  case direction =>
    intro x hx
    have hleft := List.length_pos_of_mem hx
    have hbusy : ¬ b.watch.inside - 1 = 0 := by
      simp only [advance] at hleft
      omega
    simp only [advance, Occupancy.leave, if_neg hbusy]
    exact h.direction x (hlaw.symm.subset (List.mem_append_right _ hx))
  case peak => exact h.peak
  case room => exact h.room
  case oneWay => exact h.oneWay

/-- **Every step leaves the watch with a right picture, and without a violation.** -/
theorem Turn.watched (hturn : b.Turn i m time b') (hi : b.members[i]? = some m) (hm : b.Manned)
    (h : b.Watched) : b'.Watched := by
  cases hturn with
  | arrive hp | queue hp | collect hp | release hp | refuse hp =>
    refine h.onBus hi _ _ ?_
    rw [Member.inside?, Member.inside?, hp]
  | enter hp => exact h.enter hm hi hp time
  | leave hp => exact h.leave hi hp time

/-! ### The trace -/

theorem getElem?_advance {b : Batch} {j : Nat} {m' : Member} {phase : Phase}
    (hj : (b.advance i m phase).members[j]? = some m') :
    j = i ∧ m' = { m with phase := phase } ∨ j ≠ i ∧ b.members[j]? = some m' := by
  simp only [advance, List.getElem?_set] at hj
  split_ifs at hj with hij hlt
  · exact Or.inl ⟨hij.symm, (Option.some.inj hj).symm⟩
  · exact Or.inr ⟨fun hji => hij hji.symm, hj⟩

theorem Traced.ids_advance (h : b.Traced) (hi : b.members[i]? = some m) (phase : Phase) {j : Nat}
    {m' : Member} (hj : (b.advance i m phase).members[j]? = some m') : m'.task.id = j := by
  rcases getElem?_advance hj with ⟨rfl, rfl⟩ | ⟨-, hj⟩
  · exact (h.ids hi :)
  · exact h.ids hj

theorem Traced.onBus (h : b.Traced) (hi : b.members[i]? = some m) (op : Op) (phase : Phase)
    (hpass : Member.passages { m with phase := phase } = m.passages) :
    (b.onBus op i m phase).Traced := by
  constructor
  case ids => exact h.ids_advance hi phase
  case passages =>
    intro j m' hj
    rcases getElem?_advance hj with ⟨rfl, rfl⟩ | ⟨-, hj⟩
    · rw [hpass]
      exact h.passages hi
    · exact h.passages hj
  case known =>
    intro e he
    simp only [Batch.onBus, advance, List.length_set]
    exact h.known e he

/-- One more line about the member that made the step keeps the trace right. -/
theorem Traced.seen (h : b.Traced) (hi : b.members[i]? = some m) (phase : Phase) (kind : Passage)
    (hpass : Member.passages { m with phase := phase } = m.passages ++ [kind]) {watch : Occupancy}
    {inside : Nat}
    (htrace : watch.seen.trace =
      b.watch.seen.trace ++ [Occupancy.event kind m.visitor inside time]) :
    ({ b with watch := watch }.advance i m phase).Traced := by
  have hid : (Occupancy.event kind m.visitor inside time).task = i := h.ids hi
  constructor
  case ids => exact h.ids_advance hi phase
  case passages =>
    intro j m' hj
    simp only [advance, htrace, List.filter_append, List.map_append]
    rcases getElem?_advance hj with ⟨rfl, rfl⟩ | ⟨hne, hj⟩
    · rw [hpass, h.passages hi, List.filter_singleton, hid, decide_eq_true rfl]
      rfl
    · rw [h.passages hj, List.filter_singleton, hid, decide_eq_false (Ne.symm hne)]
      exact List.append_nil _
  case known =>
    intro e he
    simp only [advance, htrace, List.length_set] at he ⊢
    rcases List.mem_append.1 he with hold | hnew
    · exact h.known e hold
    · rw [List.mem_singleton.1 hnew, hid]
      exact (List.getElem?_eq_some_iff.1 hi).1

/-- **Every step leaves the trace right.** -/
theorem Turn.traced (hturn : b.Turn i m time b') (hi : b.members[i]? = some m) (h : b.Traced) :
    b'.Traced := by
  cases hturn with
  | arrive hp | queue hp | collect hp | release hp | refuse hp =>
    refine h.onBus hi _ _ ?_
    rw [Member.passages, Member.passages, hp]
  | enter hp =>
    refine h.seen hi _ .enter ?_ rfl
    rw [Member.passages, Member.passages, hp]
    rfl
  | leave hp =>
    refine h.seen hi _ .leave ?_ rfl
    rw [Member.passages, Member.passages, hp]
    rfl

/-! ### The report -/

theorem count_passages (trace : List TraceEvent) (kind : Passage) (i : Nat) :
    ((trace.filter fun e => e.kind = kind).map TraceEvent.task).count i =
      ((trace.filter (·.task = i)).map TraceEvent.kind).count kind := by
  rw [List.count_eq_countP, List.count_eq_countP, List.countP_map, List.countP_map,
    List.countP_filter, List.countP_filter]
  refine List.countP_congr fun e _ => ?_
  simp [and_comm]

theorem order_perm {trace : List TraceEvent} {n : Nat}
    (hpass : ∀ i < n, (trace.filter (·.task = i)).map TraceEvent.kind = [.enter, .leave])
    (hknown : ∀ e ∈ trace, e.task < n) :
    ((trace.filter fun e => e.kind = .enter).map TraceEvent.task).Perm (List.range n) := by
  rw [List.perm_iff_count]
  intro i
  rw [count_passages]
  by_cases hi : i < n
  · rw [hpass i hi, List.count_eq_one_of_mem List.nodup_range (List.mem_range.2 hi)]
    rfl
  · have hnone : trace.filter (·.task = i) = [] := by
      refine List.filter_eq_nil_iff.2 fun e he => ?_
      have hlt := hknown e he
      rw [decide_eq_true_eq]
      omega
    rw [hnone, List.count_eq_zero.2 fun hmem => hi (List.mem_range.1 hmem)]
    rfl

theorem isIdle_snapshot {bus : Bus} (hactive : bus.active = 0)
    (hwaiting : ∀ c, bus.waiting.get c = []) : bus.snapshot.isIdle = .ok true := by
  have hsum : bus.waitingCounts.sum = 0 := Bus.totalWaiting_eq_zero.2 hwaiting
  have htotal : bus.waitingCounts.total = .ok 0 := by
    rw [Bus.total_eq_ok (by rw [hsum]; exact Nat.zero_le _), hsum]
  simp only [Snapshot.isIdle, Bus.snapshot, hactive, htotal, if_true]
  rfl

/-- What is kept in order while a batch of `n` tasks runs. -/
structure InOrder (n capacity : Nat) (b : Batch) : Prop where
  manned : b.Manned
  watched : b.Watched
  traced : b.Traced
  size : b.members.length = n
  capacity : b.bus.config.capacity = capacity

variable {n capacity : Nat}

theorem Turn.size (hturn : b.Turn i m time b') : b'.members.length = b.members.length := by
  cases hturn <;> exact List.length_set

theorem Turn.config (hturn : b.Turn i m time b') : b'.bus.config = b.bus.config := by
  cases hturn with
  | arrive | queue | collect | release | refuse => exact Bus.config_step b.bus _
  | enter | leave => rfl

theorem InOrder.step (h : b.InOrder n capacity) (hs : b.step? i time = some b') :
    b'.InOrder n capacity := by
  cases hi : b.members[i]? with
  | none =>
    simp only [step?, hi] at hs
    cases hs
  | some m =>
    have hturn := turn_step? hi hs
    exact ⟨hturn.manned hi h.manned, hturn.watched hi h.manned h.watched,
      hturn.traced hi h.traced, hturn.size.trans h.size, by rw [hturn.config, h.capacity]⟩

/-- The report of a batch in order whose members are all done. -/
theorem InOrder.flawless (h : b.InOrder n capacity) (hdone : ∀ m ∈ b.members, m.isDone = true)
    (elapsed : Span) : Flawless (b.report elapsed) n capacity := by
  obtain ⟨hactive, hwaiting, hadmissions, hlength, hwaited⟩ := h.manned.of_done hdone
  have hknown : ∀ e ∈ b.watch.seen.trace, e.task < n := fun e he => h.size ▸ h.traced.known e he
  have hpass : ∀ i < n,
      (b.watch.seen.trace.filter (·.task = i)).map TraceEvent.kind = [.enter, .leave] := by
    intro i hi
    have hget := List.getElem?_eq_getElem (h.size.symm ▸ hi : i < b.members.length)
    obtain ⟨waited, hp⟩ := Member.isDone_iff.1 (hdone _ (List.mem_of_getElem? hget))
    rw [h.traced.passages hget, Member.passages, hp]
  have horder := order_perm hpass hknown
  have hidle := isIdle_snapshot hactive hwaiting
  constructor
  case clean =>
    have hviolations : (b.report elapsed).violations = .ok 0 := by
      simp only [Report.violations, report, h.watched.room, h.watched.oneWay]
      rfl
    have hlen : (b.report elapsed).admissionOrder.length = (b.report elapsed).tasks := by
      simp only [report]
      rw [horder.length_eq, List.length_range, h.size]
    simp only [Report.isClean, hviolations, hlen]
    exact hidle
  case tasks => exact h.size
  case order => exact horder
  case passages => exact hpass
  case known => exact hknown
  case peak => exact h.watched.peak
  case peak_le => exact h.capacity ▸ h.manned.reachable.peak.le_capacity
  case admissions => exact hadmissions.trans h.size
  case waited_length => exact hlength.trans h.size
  case waited => exact hwaited
  case idle => exact hidle

/-! ### The whole run -/

/-- The batch of a workload, about to begin. -/
def initial (w : Workload) : Batch where
  bus := .new w.config
  watch := .new w.capacity
  members := w.taskList.map fun t => { task := t }

variable {w : Workload}

theorem plan_of_error {overflow : Overflow} (h : w.taskCount = .error overflow) :
    plan w = .error overflow := by
  rw [plan, Workload.tasks_of_error h]
  rfl

/-- The tasks can be run just if there is room for so many with their times. -/
theorem plan_eq (hn : w.taskCount = .ok n) : plan w =
    if n ≤ Word.maxBytes / plannedBytes then .ok w.taskList else .error .capacity := by
  have htasks := Workload.tasks_eq hn
  by_cases hle : n ≤ Word.maxBytes / Task.bytes
  · rw [if_pos hle] at htasks
    have hroom : plan w = Word.room plannedBytes n >>= fun _ => .ok w.taskList := by
      rw [plan, htasks, ← Workload.length_taskList hn]
      rfl
    rw [hroom, Word.room_bind (by decide)]
  · -- a task with its time takes more room than the task alone
    have hless : Word.maxBytes / plannedBytes ≤ Word.maxBytes / Task.bytes := by decide
    rw [if_neg hle] at htasks
    rw [plan, htasks, if_neg fun hfew => hle (Nat.le_trans hfew hless)]
    rfl

theorem plan_eq_taskList {tasks : List Task} (h : plan w = .ok tasks) : tasks = w.taskList := by
  cases hcount : w.taskCount with
  | error overflow =>
    rw [plan_of_error hcount] at h
    cases h
  | ok n =>
    rw [plan_eq hcount] at h
    split_ifs at h
    exact (Except.ok.inj h).symm

theorem start_eq (hcap : 0 < w.capacity) : start w =
    match plan w with
    | .error overflow => .error (.tooManyTasks overflow)
    | .ok _ => .ok (initial w) := by
  have hvalid : w.config.valid = true := decide_eq_true (Nat.ne_of_gt hcap)
  have hbuild : Bus.build w.config = .ok (.new w.config) := if_pos hvalid
  rw [start, hbuild]
  cases hplan : plan w with
  | error => rfl
  | ok tasks =>
    rw [plan_eq_taskList hplan]
    rfl

theorem filterMap_initial {α : Type} {f : Member → Option α} (hf : ∀ t, f { task := t } = none) :
    (initial w).members.filterMap f = [] := by
  rw [initial, List.filterMap_map]
  exact List.filterMap_eq_nil_iff.2 fun t _ => hf t

theorem getElem?_initial (hi : (initial w).members[i]? = some m) :
    w.taskList[i]? = some m.task ∧ m.phase = .ready := by
  rw [initial, List.getElem?_map] at hi
  obtain ⟨t, ht, rfl⟩ := Option.map_eq_some_iff.1 hi
  exact ⟨ht, rfl⟩

theorem manned_initial (hcap : 0 < w.capacity) : (initial w).Manned := by
  have hqueued := filterMap_initial (w := w) (f := Member.queued?) fun _ => rfl
  have hslots := filterMap_initial (w := w) (f := Member.slot?) fun _ => rfl
  have hanswers := filterMap_initial (w := w) (f := Member.answer?) fun _ => rfl
  constructor
  case reachable => exact Bus.reachable_new (decide_eq_true (Nat.ne_of_gt hcap))
  case queued =>
    rw [hqueued]
    exact List.Perm.refl _
  case owed =>
    rw [hqueued]
    exact fun x hx => absurd hx List.not_mem_nil
  case slots =>
    rw [hslots]
    exact List.Perm.refl _
  case admissions =>
    rw [hanswers]
    rfl
  case waits =>
    rw [hanswers]
    rfl
  case sane =>
    intro m hm
    obtain ⟨i, hi⟩ := List.mem_iff_getElem?.1 hm
    rw [fault?, (getElem?_initial hi).2]

theorem watched_initial (w : Workload) : (initial w).Watched := by
  have hinside := filterMap_initial (w := w) (f := Member.inside?) fun _ => rfl
  constructor
  case capacity => rfl
  case inside =>
    rw [hinside]
    rfl
  case direction =>
    rw [hinside]
    exact fun x hx => absurd hx List.not_mem_nil
  case peak => exact Nat.le_refl _
  case room => rfl
  case oneWay => rfl

theorem traced_initial (hn : w.taskCount = .ok n) : (initial w).Traced := by
  constructor
  case ids => exact fun hj => Workload.id_of_getElem? hn (getElem?_initial hj).1
  case passages =>
    intro j m hj
    rw [Member.passages, (getElem?_initial hj).2]
    rfl
  case known => exact fun e he => absurd he List.not_mem_nil

theorem inOrder_initial (hcap : 0 < w.capacity) (hn : w.taskCount = .ok n) :
    (initial w).InOrder n w.capacity where
  manned := manned_initial hcap
  watched := watched_initial w
  traced := traced_initial hn
  size := by rw [initial, List.length_map, Workload.length_taskList hn]
  capacity := rfl

/-- **Every batch runs clean.**  Take any workload with at least one slot.  If its tasks can be
counted and there is room for all of them with their times, they are started, and in whatever order
they make their steps: as long as a task is not done, some task has a step to make, whatever the
time; the bus refuses nothing; the watch counts no violation; and when all tasks are done the report
is flawless.  Otherwise nothing is started. -/
theorem flawless_run (hcap : 0 < w.capacity) :
    (∀ overflow, w.taskCount = .error overflow → start w = .error (.tooManyTasks overflow)) ∧
      ∀ n, w.taskCount = .ok n →
        (Word.maxBytes / plannedBytes < n → start w = .error (.tooManyTasks .capacity)) ∧
        (n ≤ Word.maxBytes / plannedBytes →
          ∃ b, start w = .ok b ∧ ∀ schedule : List (Nat × Nat),
            let s := b.play schedule
            ((∃ m ∈ s.members, m.isDone = false) → ∃ i, ∀ time, (s.step? i time).isSome = true) ∧
            (∀ m ∈ s.members, fault? m = none) ∧
            s.watch.seen.capacityViolations = 0 ∧ s.watch.seen.directionViolations = 0 ∧
            ((∀ m ∈ s.members, m.isDone = true) →
              ∀ elapsed, Flawless (s.report elapsed) n w.capacity)) := by
  have hstart := start_eq hcap
  refine ⟨fun overflow hoverflow => by rw [hstart, plan_of_error hoverflow], fun n hn => ?_⟩
  rw [plan_eq hn] at hstart
  refine ⟨fun hmany => by rw [hstart, if_neg (Nat.not_le.2 hmany)], fun hfew => ?_⟩
  refine ⟨initial w, by rw [hstart, if_pos hfew], fun schedule => ?_⟩
  intro s
  have h : s.InOrder n w.capacity :=
    play_induct (P := InOrder n w.capacity) (fun _ _ _ _ hb hs => hb.step hs)
      (inOrder_initial hcap hn) schedule
  refine ⟨fun ⟨m, hm, hnot⟩ => ?_, h.manned.sane, h.watched.room, h.watched.oneWay,
    fun hdone elapsed => h.flawless hdone elapsed⟩
  by_contra hstuck
  have hnone : ∀ i, ∃ time, s.step? i time = none := by
    simpa [Option.isSome_iff_ne_none] using hstuck
  rw [h.manned.of_stuck hnone m hm] at hnot
  cases hnot

/-- Two tasks and one slot: the second waits until the first is through. -/
theorem flawless_run_one_slot :
    let w : Workload := { capacity := 1, outboundNormal := 1, inboundElevated := 1 }
    0 < w.capacity ∧ w.taskCount = .ok 2 ∧ 2 ≤ Word.maxBytes / plannedBytes ∧
      ∃ b, start w = .ok b ∧
        (∃ i, ∀ time, ((b.play [(0, 0), (1, 1)]).step? i time).isSome = true) ∧
        let s := b.play [(0, 0), (1, 1), (1, 2), (0, 3), (0, 4), (0, 5), (1, 6), (1, 7), (1, 8),
          (1, 9)]
        (∀ m ∈ s.members, m.isDone = true) ∧
          (s.report (.ofSeconds 1 0)).admissionOrder = [0, 1] ∧
          (s.report (.ofSeconds 1 0)).waited = [false, true] ∧
          Flawless (s.report (.ofSeconds 1 0)) 2 1 := by
  intro w
  obtain ⟨b, hb, hrun⟩ := ((flawless_run (w := w) (by decide)).2 2 (by decide)).2 (by decide)
  have hinitial : b = initial w := by
    rw [start_eq (by decide)] at hb
    cases hb
    rfl
  subst hinitial
  refine ⟨by decide, by decide, by decide, initial w, hb, ?_, by decide, by decide, by decide, ?_⟩
  · exact (hrun [(0, 0), (1, 1)]).1 (by decide)
  · exact (hrun [(0, 0), (1, 1), (1, 2), (0, 3), (0, 4), (0, 5), (1, 6), (1, 7), (1, 8),
      (1, 9)]).2.2.2.2 (by decide) _

end Batch

end HalfDuplex

import HalfDuplex.Proofs.Drain
import HalfDuplex.Proofs.Cycle
import HalfDuplex.Proofs.Tally

/-!
# The books of a bus

Each counter in the statistics of a bus is raised in a place of its own, many of them while waiters
are let in.  Together they keep books: what a run tells by its answers and what happens at its
moments can be read off them at any time.

* `Stats.Divided` : admissions are counted by the way they came about, by direction and by priority,
  and each time the parts make up the whole.
* `Direction.changes` : how often neighbours in a row of directions differ.
* `Bus.levels` : how many slots are held at each moment of a run, also while waiters are let in.
* `Bus.Moment.starts` : the moments at which the empty bus begins to run.
* `Bus.Books` : how the counters agree with each other and with the queues.  `Bus.Books.perform` :
  every legal move keeps the books.
* `Bus.Audit`, `Bus.audit_run` : the books after any run.
-/

namespace HalfDuplex

namespace Stats

/-- The parts of the admissions make up the whole. -/
structure Divided (s : Stats) : Prop where
  byWay : s.admissions = s.immediate + s.queued
  byDirection : s.admissions = s.outbound + s.inbound
  byPriority : s.admissions = s.elevated + s.normal

end Stats

/-- A release was refused. -/
def Answer.isRefused : Answer → Bool
  | refused _ => true
  | _ => false

/-- How often neighbours in a row of directions differ. -/
def Direction.changes (ds : List Direction) : Nat := (ds.zip ds.tail).countP fun x => x.1 ≠ x.2

namespace Direction

@[simp] theorem changes_nil : changes [] = 0 := rfl

@[simp] theorem changes_singleton (d : Direction) : changes [d] = 0 := rfl

theorem changes_cons_cons (d e : Direction) (ds : List Direction) :
    changes (d :: e :: ds) = changes (e :: ds) + if d = e then 0 else 1 := by
  simp only [changes, List.tail_cons, List.zip_cons_cons, List.countP_cons]
  by_cases h : d = e <;> simp [h]

theorem changes_append_cons (last : Option Direction) (d : Direction) (ds : List Direction) :
    changes (last.toList ++ d :: ds) =
      (if last = some d.opposite then 1 else 0) + changes (d :: ds) := by
  cases last with
  | none => exact (Nat.zero_add _).symm
  | some e =>
    have hiff : some e = some d.opposite ↔ e ≠ d := by
      refine ⟨?_, fun hne => congrArg some (eq_opposite_of_ne hne)⟩
      rintro ⟨⟩
      exact opposite_ne d
    rw [Option.toList_some, List.singleton_append, changes_cons_cons, Nat.add_comm]
    simp only [hiff, ne_eq, ite_not]

theorem changes_lt {ds : List Direction} (h : ds ≠ []) : changes ds < ds.length := by
  obtain ⟨d, ds, rfl⟩ := List.exists_cons_of_ne_nil h
  have hle : changes (d :: ds) ≤ ((d :: ds).zip ds).length := List.countP_le_length
  rw [List.length_zip] at hle
  exact Nat.lt_succ_of_le (Nat.le_trans hle (Nat.min_le_right _ _))

end Direction

namespace Bus

/-- A release is refused. -/
def Move.refused? : Move → Option Unit
  | refuse => some ()
  | _ => none

/-- The bus gives away a slot when it has none to take back. -/
def Moment.starts (m : Moment) : Bool := m.bus.active = 0 && m.after.active ≠ 0

/-- How many slots are held before a run and after each of its moves. -/
def levels (b : Bus) (ops : List Op) : List Nat :=
  b.active :: (b.history ops).map fun m => m.after.active

variable {b : Bus} {m : Move} {ms : List Move}

/-! ### One move -/

theorem occupy_stats (b : Bus) (t : Ticket) (c : Cell) (why : Option Reason) :
    ∃ cycles switches, (b.occupy t c why).stats =
      { b.stats with cycles := cycles, switches := switches }.countAdmission c (b.active + 1) := by
  unfold occupy
  split_ifs
  · exact ⟨_, _, rfl⟩
  · exact ⟨_, _, rfl⟩

/-- An admission goes to one of the two directions and to one of the two priorities, and by which
way it came about has still to be counted. -/
theorem occupy_divided (h : b.stats.Divided) (t : Ticket) (c : Cell) (why : Option Reason) :
    (b.occupy t c why).stats.admissions =
        (b.occupy t c why).stats.immediate + (b.occupy t c why).stats.queued + 1 ∧
      (b.occupy t c why).stats.admissions =
        (b.occupy t c why).stats.outbound + (b.occupy t c why).stats.inbound ∧
      (b.occupy t c why).stats.admissions =
        (b.occupy t c why).stats.elevated + (b.occupy t c why).stats.normal := by
  obtain ⟨cycles, switches, hstats⟩ := occupy_stats b t c why
  obtain ⟨hway, hdirection, hpriority⟩ := h
  obtain ⟨d, p⟩ := c
  rw [hstats]
  cases d <;> cases p <;> simp only [Stats.countAdmission] <;> simp <;> omega

theorem divided_perform (h : b.stats.Divided) (m : Move) : (b.perform m).stats.Divided := by
  cases m with
  | arrive t c =>
    have hissued : b.issued.stats.Divided := h
    obtain ⟨hway, hdirection, hpriority⟩ := occupy_divided hissued t c none
    exact ⟨hway.trans (Nat.add_right_comm _ _ _), hdirection, hpriority⟩
  | board t c why =>
    have hleft : Stats.Divided
        { b with waiting := b.waiting.set c (b.waiting.get c).tail : Bus }.stats := h
    obtain ⟨hway, hdirection, hpriority⟩ := occupy_divided hleft t c why
    exact ⟨hway, hdirection, hpriority⟩
  | enqueue | collect | vacate | leave | refuse => exact ⟨h.byWay, h.byDirection, h.byPriority⟩

theorem occupy_withdrawn (b : Bus) (t : Ticket) (c : Cell) (why : Option Reason) :
    (b.occupy t c why).stats.withdrawn = b.stats.withdrawn := by
  obtain ⟨_, _, hstats⟩ := occupy_stats b t c why
  rw [hstats, Stats.countAdmission]

theorem occupy_rejected (b : Bus) (t : Ticket) (c : Cell) (why : Option Reason) :
    (b.occupy t c why).stats.rejectedReleases = b.stats.rejectedReleases := by
  obtain ⟨_, _, hstats⟩ := occupy_stats b t c why
  rw [hstats, Stats.countAdmission]

theorem withdrawn_perform (b : Bus) (m : Move) :
    (b.perform m).stats.withdrawn = b.stats.withdrawn + m.withdrawn?.toList.length := by
  cases m with
  | arrive t c => exact occupy_withdrawn _ t c none
  | board t c why => exact occupy_withdrawn _ t c why
  | enqueue | collect | vacate | leave | refuse => rfl

theorem rejected_perform (b : Bus) (m : Move) : (b.perform m).stats.rejectedReleases =
    b.stats.rejectedReleases + m.refused?.toList.length := by
  cases m with
  | arrive t c => exact occupy_rejected _ t c none
  | board t c why => exact occupy_rejected _ t c why
  | enqueue | collect | vacate | leave | refuse => rfl

/-! ### Beginnings of cycles -/

theorem starts_eq_isSome (m : Moment) : m.starts = m.cycle?.isSome := by
  obtain ⟨b, m⟩ := m
  simp only [Moment.starts, Moment.cycle?, Moment.after, active_perform]
  by_cases h0 : b.active = 0
  · cases m <;> simp [h0]
  · simp [h0]

theorem countP_starts (b : Bus) (ms : List Move) :
    (b.moments ms).countP Moment.starts = (b.begun ms).length := by
  rw [begun, List.length_filterMap_eq_countP]
  exact List.countP_congr fun m _ => by rw [starts_eq_isSome]

theorem occupy_switches (b : Bus) (t : Ticket) (c : Cell) (why : Option Reason) :
    (b.occupy t c why).stats.switches = b.stats.switches +
      (if b.active = 0 then some (Cycle.mk c.direction why) else none).toList.countP
        fun k => b.lastServed = some k.direction.opposite := by
  unfold occupy
  by_cases h0 : b.active = 0
  · simp only [h0, ↓reduceIte, Option.toList_some, List.countP_singleton, decide_eq_true_eq]
    rfl
  · simp only [h0, ↓reduceIte]
    rfl

theorem switches_perform (b : Bus) (m : Move) : (b.perform m).stats.switches =
    b.stats.switches + (Moment.cycle? ⟨b, m⟩).toList.countP
      fun k => b.lastServed = some k.direction.opposite := by
  cases m with
  | arrive t c =>
    rw [cycle?_arrive]
    exact occupy_switches b.issued t c none
  | board t c why =>
    rw [cycle?_board]
    exact occupy_switches { b with waiting := b.waiting.set c (b.waiting.get c).tail } t c why
  | enqueue | collect | vacate | leave | refuse =>
    rw [cycle?_of_not_admitted rfl]
    rfl

/-- The counted switches are the changes of direction from cycle to cycle. -/
theorem switches_performAll (b : Bus) (ms : List Move) :
    (b.performAll ms).stats.switches = b.stats.switches +
      Direction.changes (b.lastServed.toList ++ (b.begun ms).map Cycle.direction) := by
  induction ms generalizing b with
  | nil => cases b.lastServed <;> simp
  | cons m ms ih =>
    have hlast : (b.perform m).lastServed = (b.perform m).service.last := rfl
    rw [performAll_cons, ih, switches_perform, begun_cons, hlast, service_perform]
    cases Moment.cycle? ⟨b, m⟩ with
    | none => rfl
    | some k =>
      rw [Option.toList_some, List.singleton_append, List.map_cons, Direction.changes_append_cons,
        List.countP_singleton, Nat.add_assoc]
      simp only [decide_eq_true_eq]
      rfl

/-! ### The peak -/

theorem peakActive_performAll (h : b.active ≤ b.stats.peakActive) (ms : List Move) :
    (b.performAll ms).stats.peakActive =
      ((b.moments ms).map fun m => m.after.active).foldl max b.stats.peakActive := by
  induction ms generalizing b with
  | nil => rfl
  | cons m ms ih =>
    have hafter : (b.perform m).stats.peakActive = max b.stats.peakActive (b.perform m).active := by
      rw [peakActive_perform, active_perform]
      cases m with
      | arrive | board => rfl
      | vacate => exact (Nat.max_eq_left (Nat.le_trans (Nat.sub_le _ _) h)).symm
      | enqueue | collect | leave | refuse => exact (Nat.max_eq_left h).symm
    have hle : (b.perform m).active ≤ (b.perform m).stats.peakActive := by
      rw [hafter]
      exact Nat.le_max_right _ _
    rw [performAll_cons, ih hle, hafter]
    rfl

/-! ### What every move keeps -/

/-- The counters of a bus agree with each other, with its queues and with the numbers that it has
given out. -/
structure Books (b : Bus) : Prop where
  divided : b.stats.Divided
  /-- Who got a number was admitted, was withdrawn or waits. -/
  issued : b.stats.admissions + b.stats.withdrawn + b.totalWaiting = b.nextTicket
  cycles_le : b.stats.cycles ≤ b.stats.admissions
  switches_le : b.stats.switches ≤ b.stats.cycles

theorem nextTicket_perform_eq (b : Bus) (m : Move) : (b.perform m).nextTicket =
    b.nextTicket + m.arrived?.toList.length + m.joined?.toList.length := by
  rw [nextTicket_perform]
  cases m <;> rfl

/-- Who goes from a queue takes a slot or goes away, and who takes a slot comes from a queue or from
outside. -/
theorem balance_move (m : Move) :
    m.admitted?.toList.length + m.withdrawn?.toList.length =
      m.arrived?.toList.length + m.departed?.toList.length := by
  cases m <;> rfl

theorem Books.perform (h : b.Books) (hm : b.Legal m) : (b.perform m).Books := by
  have hadmissions := admissions_perform b m
  have hcycles := countedCycles_perform b m
  constructor
  case divided => exact divided_perform h.divided m
  case issued =>
    have hbefore := h.issued
    have hwithdrawn := withdrawn_perform b m
    have hbalance := balance_move m
    have hqueue := (queue_perform hm).length_eq
    simp only [List.length_append, length_queue] at hqueue
    rw [nextTicket_perform_eq]
    omega
  case cycles_le =>
    -- only who takes a slot begins a cycle
    have hone : (Moment.cycle? ⟨b, m⟩).toList.length ≤ m.admitted?.toList.length := by
      cases ha : m.admitted? with
      | none =>
        rw [cycle?_of_not_admitted ha]
        exact Nat.le_refl _
      | some x => cases Moment.cycle? ⟨b, m⟩ <;> simp
    have hbefore := h.cycles_le
    omega
  case switches_le =>
    have hswitch := switches_perform b m
    have hone : (Moment.cycle? ⟨b, m⟩).toList.countP
        (fun k => b.lastServed = some k.direction.opposite) ≤
          (Moment.cycle? ⟨b, m⟩).toList.length := List.countP_le_length
    have hbefore := h.switches_le
    omega

theorem books_new (config : Config) : (Bus.new config).Books :=
  ⟨⟨rfl, rfl, rfl⟩, rfl, Nat.le_refl _, Nat.le_refl _⟩

/-- The books agree at every moment of every run. -/
theorem Reachable.books (h : b.Reachable) : b.Books := by
  obtain ⟨hc, ops, hrun⟩ := h
  have hlegal := (reachable_new hc).legal ops
  rw [← hrun, run_eq_performAll]
  exact (kept_performAll (fun _ _ _ hm hs => hs.perform hm) (sound_new hc) (books_new _) hlegal).2

/-! ### Refused releases -/

theorem refused_step (b : Bus) (op : Op) :
    (b.step op).1.isRefused.toNat = ((b.moves op).filterMap Move.refused?).length := by
  have hnone : ∀ s : Bus, s.dispatchMoves.filterMap Move.refused? = [] :=
    fun s => filterMap_dispatchMoves_eq_nil (fun _ _ _ => rfl) s
  cases op with
  | request c | tryRequest c =>
    rw [moves]
    split_ifs <;> rfl
  | takeGrant t =>
    rw [moves]
    split_ifs <;> rfl
  | release c =>
    cases h : b.oldestHolder? c with
    | none =>
      simp only [step, release, moves, h]
      rfl
    | some t =>
      simp only [step, release, moves, h]
      exact (congrArg List.length (hnone _)).symm
  | releaseTicket t =>
    cases h : b.cellOf? t with
    | none =>
      simp only [step, releaseTicket, moves, h]
      rfl
    | some c =>
      simp only [step, releaseTicket, moves, h]
      exact (congrArg List.length (hnone _)).symm
  | withdraw t =>
    cases h : b.queueOf? t with
    | none =>
      simp only [step, moves, h]
      rfl
    | some c =>
      simp only [step, moves, h]
      exact (congrArg List.length (hnone _)).symm

/-! ### Runs -/

/-- The books of a bus after a run: what the answers of the run tell and what happens at its moments
can be read off the counters. -/
structure Audit (b : Bus) (ops : List Op) (s : Bus) : Prop where
  divided : s.stats.Divided
  /-- Every ticket that an answer calls admitted is counted. -/
  admissions : ((b.run ops).1.flatMap Answer.admitted).length = s.stats.admissions
  /-- Who got a number was admitted, was withdrawn or waits. -/
  issued : (b.issues ops).length = s.stats.admissions + s.stats.withdrawn + s.totalWaiting
  /-- Who was admitted has given back its slot or holds it. -/
  gaveBack : (b.run ops).1.countP Answer.gaveBack + s.active = s.stats.admissions
  refused : (b.run ops).1.countP Answer.isRefused = s.stats.rejectedReleases
  /-- The peak is the highest number of held slots at any moment. -/
  peak : (b.levels ops).max? = some s.stats.peakActive
  peak_le : s.stats.peakActive ≤ s.config.capacity
  /-- The cycles are the moments at which the empty bus begins to run. -/
  cycles : (b.history ops).countP Moment.starts = s.stats.cycles
  cycles_le : s.stats.cycles ≤ s.stats.admissions
  /-- The directions of these cycles change as often as switches are counted. -/
  switches : Direction.changes ((b.cycles ops).map Cycle.direction) = s.stats.switches
  switches_eq_zero : s.stats.cycles = 0 → s.stats.switches = 0
  switches_lt : s.stats.cycles ≠ 0 → s.stats.switches < s.stats.cycles

section FromEmpty

variable (config : Config) (ops : List Op)

/-- The counters of a bus that began empty, in terms of the moves of its run. -/
theorem admissions_run : ((Bus.new config).run ops).2.stats.admissions =
    (((Bus.new config).trace ops).filterMap Move.admitted?).length := by
  rw [run_eq_performAll]
  exact (tally_performAll admissions_perform _ _).trans (Nat.zero_add _)

theorem rejected_run : ((Bus.new config).run ops).2.stats.rejectedReleases =
    (((Bus.new config).trace ops).filterMap Move.refused?).length := by
  rw [run_eq_performAll]
  exact (tally_performAll rejected_perform _ _).trans (Nat.zero_add _)

theorem cycles_run : ((Bus.new config).run ops).2.stats.cycles =
    ((Bus.new config).cycles ops).length :=
  (countedCycles_run _ _).trans (Nat.zero_add _)

theorem switches_run : ((Bus.new config).run ops).2.stats.switches =
    Direction.changes (((Bus.new config).cycles ops).map Cycle.direction) := by
  rw [run_eq_performAll]
  exact (switches_performAll _ _).trans (Nat.zero_add _)

theorem peak_run : ((Bus.new config).levels ops).max? =
    some ((Bus.new config).run ops).2.stats.peakActive := by
  rw [run_eq_performAll, peakActive_performAll (Nat.le_refl _), levels, List.max?_cons']
  rfl

theorem length_issues_run (hc : config.valid = true) : ((Bus.new config).issues ops).length =
    ((Bus.new config).run ops).2.nextTicket := by
  have hnumbers := congrArg List.length (range_issued ((reachable_new hc).legal ops))
  rw [← run_eq_performAll, List.length_append, List.length_range, List.length_map,
    List.length_range] at hnumbers
  rw [issues_eq, ← hnumbers]
  exact (Nat.zero_add _).symm

end FromEmpty

/-- **The books of a bus are right after any run.**  Whatever operations the run makes, and refused
ones among them, its counters agree with what its answers told and with what happened at its
moments. -/
theorem audit_run {config : Config} (hc : config.valid = true) (ops : List Op) :
    (Bus.new config).Audit ops ((Bus.new config).run ops).2 := by
  have hreach := reachable_new hc
  have hlegal := hreach.legal ops
  have hend := hreach.run ops
  constructor
  case divided => exact hend.books.divided
  case admissions => rw [admissions_run, admitted_run, ← List.map_filterMap, List.length_map]
  case issued =>
    rw [hend.books.issued]
    exact length_issues_run config ops hc
  case gaveBack =>
    have hslots := (holders_performAll hreach.booked hlegal).length_eq
    rw [← run_eq_performAll, List.length_append, List.length_append,
      hend.sound.slots.holders_length] at hslots
    rw [admissions_run, count_gaveBack_run, ← hslots]
    exact Nat.zero_add _
  case refused => rw [rejected_run, countP_run refused_step]
  case peak => exact peak_run config ops
  case peak_le => exact hend.peak.le_capacity
  case cycles => rw [cycles_run, history, countP_starts, cycles]
  case cycles_le => exact hend.books.cycles_le
  case switches => exact (switches_run config ops).symm
  case switches_eq_zero =>
    rw [cycles_run, switches_run, List.length_eq_zero_iff]
    intro h0
    rw [h0, List.map_nil, Direction.changes_nil]
  case switches_lt =>
    rw [cycles_run, switches_run]
    intro h0
    have hsome : ((Bus.new config).cycles ops).map Cycle.direction ≠ [] := by
      intro hnil
      rw [List.map_eq_nil_iff.1 hnil] at h0
      exact h0 rfl
    have hlt := Direction.changes_lt hsome
    rwa [List.length_map] at hlt

/-- A bus with two slots on which a waiter is admitted and another withdraws, a release is refused
and the direction changes once. -/
theorem audit_run_two_slots :
    (⟨2, .alternate, 1, false⟩ : Config).valid = true ∧
      let b := Bus.new ⟨2, .alternate, 1, false⟩
      let ops : List Op := [.request ⟨.outbound, .normal⟩, .tryRequest ⟨.outbound, .elevated⟩,
        .request ⟨.inbound, .elevated⟩, .request ⟨.inbound, .normal⟩, .withdraw 3,
        .releaseTicket 7, .release ⟨.outbound, .normal⟩, .releaseTicket 1]
      b.Audit ops (b.run ops).2 ∧ (b.run ops).2.stats.tallies = [3, 2, 1, 2, 1, 2, 1, 2, 1, 1, 1] ∧
        b.levels ops = [0, 1, 2, 2, 2, 2, 2, 1, 0, 1] ∧
        (b.cycles ops).map Cycle.direction = [.outbound, .inbound] :=
  ⟨by decide, audit_run (by decide) _, by decide, by decide, by decide⟩

end Bus

end HalfDuplex

import HalfDuplex.Occupancy
import Mathlib.Data.List.Basic

/-!
# The verdict of an outside observer

An observer beside the bus remembers how many tasks are inside and in which direction the last one
came in, not who is inside.  That is enough to tell exactly what happened.

* `Occupancy.moments` : a sequence of passages, each with the tasks that are inside just before it.
* `Occupancy.Sees` : what the observer knows of the tasks inside.  The direction it remembers is
  theirs only as long as nobody came in against them.
* `Occupancy.Sees.clashes_iff` : until then, the test for a newcomer is right.
* `Occupancy.Records` : what the observer adds to its records over a number of moments.
* `Occupancy.verdict_watch` : what it has recorded in the end.

The same task may come in several times before it goes; it is inside as often as that.
-/

namespace HalfDuplex

namespace Occupancy

/-- A task passes at a time. -/
structure Sighting where
  kind : Passage
  visitor : Visitor
  atMicros : Nat
  deriving DecidableEq, Repr

/-- The watch after a sequence of passages. -/
def watch (o : Occupancy) (sightings : List Sighting) : Occupancy :=
  sightings.foldl (fun o s => o.pass s.kind s.visitor s.atMicros) o

/-- A passage and the tasks that are inside just before it. -/
structure Moment where
  inside : List Visitor
  sighting : Sighting
  deriving DecidableEq, Repr

namespace Moment

/-- The tasks inside just after the passage. -/
def after (m : Moment) : List Visitor :=
  match m.sighting.kind with
  | .enter => m.sighting.visitor :: m.inside
  | .leave => m.inside.erase m.sighting.visitor

/-- A task that goes was inside. -/
def Possible (m : Moment) : Prop := m.sighting.kind = .leave → m.sighting.visitor ∈ m.inside

/-- No task comes in while one of the opposite direction is inside. -/
def OneWay (m : Moment) : Prop := m.sighting.kind = .enter →
  ∀ u ∈ m.inside, u.cell.direction ≠ m.sighting.visitor.cell.direction.opposite

/-- A task comes in and finds at least `capacity` others. -/
def overfills (capacity : Nat) (m : Moment) : Bool :=
  m.sighting.kind = .enter ∧ capacity ≤ m.inside.length

/-- The line that an observer should trace. -/
def line (m : Moment) : TraceEvent where
  kind := m.sighting.kind
  task := m.sighting.visitor.task
  direction := m.sighting.visitor.cell.direction
  priority := m.sighting.visitor.cell.priority
  inside := m.after.length
  atMicros := m.sighting.atMicros

end Moment

/-- The moments of a sequence of passages that begins with these tasks inside. -/
def moments (inside : List Visitor) : List Sighting → List Moment
  | [] => []
  | s :: rest => ⟨inside, s⟩ :: moments (Moment.after ⟨inside, s⟩) rest

/-- What the observer knows of the tasks inside. -/
structure Sees (o : Occupancy) (inside : List Visitor) : Prop where
  count : o.inside = inside.length
  le_peak : o.inside ≤ o.seen.peak
  /-- Up to the first violation, all tasks inside go in the remembered direction. -/
  direction : o.seen.directionViolations = 0 → ∀ u ∈ inside, o.direction = some u.cell.direction

/-- What the observer adds to its records over these moments. -/
structure Records (o : Occupancy) (ms : List Moment) (o' : Occupancy) : Prop where
  capacity : o'.capacity = o.capacity
  oneWay : o'.seen.directionViolations = 0 ↔
    o.seen.directionViolations = 0 ∧ ∀ m ∈ ms, m.OneWay
  overfull : o'.seen.capacityViolations =
    o.seen.capacityViolations + ms.countP (·.overfills o.capacity)
  trace : o'.seen.trace = o.seen.trace ++ ms.map Moment.line
  peak : o'.seen.peak = (ms.map fun m => m.after.length).foldl max o.seen.peak

variable {o o' o'' : Occupancy} {inside : List Visitor} {ms ms' : List Moment} {v : Visitor}
  {s : Sighting} {atMicros : Nat} {d : Direction}

/-! ### One passage -/

theorem Sees.isFull_iff (h : o.Sees inside) : o.isFull = true ↔ o.capacity ≤ inside.length := by
  rw [isFull, h.count, decide_eq_true_eq]

/-- Up to the first violation, a newcomer clashes with the remembered direction exactly if somebody
inside goes the other way. -/
theorem Sees.clashes_iff (h : o.Sees inside) (hnone : o.seen.directionViolations = 0) :
    o.clashes d = true ↔ ∃ u ∈ inside, u.cell.direction = d.opposite := by
  simp only [clashes, Bool.and_eq_true, decide_eq_true_eq, h.count, List.length_pos_iff_exists_mem]
  constructor
  · rintro ⟨⟨u, hu⟩, hne⟩
    refine ⟨u, hu, Direction.eq_opposite_of_ne ?_⟩
    rintro rfl
    exact hne (h.direction hnone u hu)
  · rintro ⟨u, hu, hd⟩
    refine ⟨⟨u, hu⟩, ?_⟩
    rw [h.direction hnone u hu, hd, Ne, Option.some.injEq]
    exact Direction.opposite_ne d

theorem directionViolations_enter (h : o.Sees inside) :
    (o.enter v atMicros).seen.directionViolations = 0 ↔
      o.seen.directionViolations = 0 ∧ Moment.OneWay ⟨inside, .enter, v, atMicros⟩ := by
  simp only [enter, Nat.add_eq_zero_iff]
  refine and_congr_right fun hnone => ?_
  have hclash := h.clashes_iff hnone (d := v.cell.direction)
  have hoff : (if o.clashes v.cell.direction then 1 else 0) = 0 ↔
      ¬ o.clashes v.cell.direction = true := by
    cases o.clashes v.cell.direction <;> simp
  rw [hoff, hclash]
  simp only [Moment.OneWay, not_exists, not_and, forall_const]

theorem Sees.enter (h : o.Sees inside) : (o.enter v atMicros).Sees (v :: inside) where
  count := congrArg (· + 1) h.count
  le_peak := Nat.le_max_right _ _
  direction hnone u hu := by
    obtain ⟨hbefore, honeWay⟩ := (directionViolations_enter h).1 hnone
    rcases List.mem_cons.1 hu with rfl | hu
    · rfl
    · have hne := honeWay rfl u hu
      have hsame : u.cell.direction = v.cell.direction := by
        by_contra hd
        exact hne (Direction.eq_opposite_of_ne hd)
      exact congrArg some hsame.symm

theorem Sees.leave (h : o.Sees inside) (hv : v ∈ inside) :
    (o.leave v atMicros).Sees (inside.erase v) where
  count := by rw [List.length_erase_of_mem hv, ← h.count]; rfl
  le_peak := Nat.le_trans (Nat.sub_le _ _) h.le_peak
  direction hnone u hu := by
    have hlen : o.inside - 1 ≠ 0 := by
      rw [h.count, ← List.length_erase_of_mem hv]
      exact Nat.ne_of_gt (List.length_pos_of_mem hu)
    simp only [Occupancy.leave, if_neg hlen]
    exact h.direction hnone u (List.mem_of_mem_erase hu)

theorem Sees.records_enter (h : o.Sees inside) :
    o.Records [⟨inside, .enter, v, atMicros⟩] (o.enter v atMicros) where
  capacity := rfl
  oneWay := by
    rw [directionViolations_enter h, List.forall_mem_singleton]
  overfull := by
    have hfull := h.isFull_iff
    simp only [Occupancy.enter, List.countP_singleton, Moment.overfills, true_and,
      decide_eq_true_eq, hfull]
  trace := by
    simp only [Occupancy.enter, List.map_singleton, event, Moment.line, Moment.after,
      List.length_cons, h.count]
  peak := by
    simp only [Occupancy.enter, List.map_singleton, List.foldl_cons, List.foldl_nil, Moment.after,
      List.length_cons, h.count]

theorem Sees.records_leave (h : o.Sees inside) (hv : v ∈ inside) :
    o.Records [⟨inside, .leave, v, atMicros⟩] (o.leave v atMicros) where
  capacity := rfl
  oneWay := by simp [Occupancy.leave, Moment.OneWay]
  overfull := by simp [Occupancy.leave, Moment.overfills]
  trace := by
    simp only [Occupancy.leave, List.map_singleton, event, Moment.line, Moment.after,
      List.length_erase_of_mem hv, h.count]
  peak := by
    -- a task that goes makes no new peak
    have hle : (inside.erase v).length ≤ o.seen.peak := by
      rw [List.length_erase_of_mem hv, ← h.count]
      exact Nat.le_trans (Nat.sub_le _ _) h.le_peak
    simp only [Occupancy.leave, List.map_singleton, List.foldl_cons, List.foldl_nil, Moment.after]
    exact (Nat.max_eq_left hle).symm

/-- One passage, as the observer sees and records it. -/
theorem Sees.pass (h : o.Sees inside) (hm : Moment.Possible ⟨inside, s⟩) :
    (o.pass s.kind s.visitor s.atMicros).Sees (Moment.after ⟨inside, s⟩) ∧
      o.Records [⟨inside, s⟩] (o.pass s.kind s.visitor s.atMicros) := by
  obtain ⟨kind, v, atMicros⟩ := s
  cases kind with
  | enter => exact ⟨h.enter, h.records_enter⟩
  | leave => exact ⟨h.leave (hm rfl), h.records_leave (hm rfl)⟩

/-! ### A whole watch -/

theorem Records.nil (o : Occupancy) : o.Records [] o where
  capacity := rfl
  oneWay := by simp
  overfull := rfl
  trace := (List.append_nil _).symm
  peak := rfl

theorem Records.trans (h : o.Records ms o') (h' : o'.Records ms' o'') :
    o.Records (ms ++ ms') o'' where
  capacity := h'.capacity.trans h.capacity
  oneWay := by rw [h'.oneWay, h.oneWay, List.forall_mem_append, and_assoc]
  overfull := by rw [h'.overfull, h.overfull, h.capacity, List.countP_append, Nat.add_assoc]
  trace := by rw [h'.trace, h.trace, List.map_append, List.append_assoc]
  peak := by rw [h'.peak, h.peak, List.map_append, List.foldl_append]

/-- What the observer records of a sequence of passages in which nobody goes who was not inside. -/
theorem Sees.records_watch (h : o.Sees inside) {sightings : List Sighting}
    (hms : ∀ m ∈ moments inside sightings, m.Possible) :
    o.Records (moments inside sightings) (o.watch sightings) := by
  induction sightings generalizing o inside with
  | nil => exact .nil o
  | cons s rest ih =>
    rw [moments, List.forall_mem_cons] at hms
    obtain ⟨hsees, hrecords⟩ := h.pass hms.1
    exact hrecords.trans (ih hsees hms.2)

theorem sees_new (capacity : Nat) : (Occupancy.new capacity).Sees [] :=
  ⟨rfl, Nat.le_refl _, fun _ _ hu => nomatch hu⟩

theorem foldl_max_eq (l : List Nat) : l.foldl max 0 = l.max?.getD 0 := by
  cases l with
  | nil => rfl
  | cons n l => rw [List.max?_cons', Option.getD_some, List.foldl_cons, Nat.zero_max]

/-- **The observer's verdict is exact.**  Let tasks come and go in any order, as long as nobody goes
who is not inside.  The observer reports no violation of direction exactly if no task ever came in
while one of the opposite direction was inside.  It reports as many violations of the capacity as
tasks came in and found at least that many inside.  It traces every passage with the true number of
tasks inside after it, and its peak is the greatest of these numbers, or zero if there are none. -/
theorem verdict_watch (capacity : Nat) {sightings : List Sighting}
    (h : ∀ m ∈ moments [] sightings, m.Possible) :
    let seen := ((Occupancy.new capacity).watch sightings).seen
    (seen.directionViolations = 0 ↔ ∀ m ∈ moments [] sightings, m.sighting.kind = .enter →
        ∀ u ∈ m.inside, u.cell.direction ≠ m.sighting.visitor.cell.direction.opposite) ∧
      seen.capacityViolations = (moments [] sightings).countP (fun m =>
        m.sighting.kind = .enter ∧ capacity ≤ m.inside.length) ∧
      seen.trace = (moments [] sightings).map Moment.line ∧
      seen.peak = ((moments [] sightings).map fun m => m.after.length).max?.getD 0 := by
  intro seen
  have hrecords := (sees_new capacity).records_watch h
  refine ⟨?_, ?_, hrecords.trace, ?_⟩
  · rw [hrecords.oneWay]
    exact and_iff_right rfl
  · exact hrecords.overfull.trans (Nat.zero_add _)
  · exact hrecords.peak.trans (foldl_max_eq _)

/-- An outbound task is inside when an inbound one comes in, beyond the capacity of one. -/
theorem verdict_watch_both_ways :
    let out : Visitor := ⟨0, .outbound, .normal⟩
    let inn : Visitor := ⟨1, .inbound, .normal⟩
    let sightings : List Sighting :=
      [⟨.enter, out, 3⟩, ⟨.enter, inn, 5⟩, ⟨.leave, inn, 8⟩, ⟨.leave, out, 9⟩]
    let seen := ((Occupancy.new 1).watch sightings).seen
    (∀ m ∈ moments [] sightings, m.Possible) ∧ seen.directionViolations = 1 ∧
      (∃ m ∈ moments [] sightings, m.sighting.kind = .enter ∧
        ∃ u ∈ m.inside, u.cell.direction = m.sighting.visitor.cell.direction.opposite) ∧
      seen.capacityViolations = 1 ∧ seen.trace.map TraceEvent.inside = [1, 2, 1, 0] ∧
      seen.peak = 2 := by
  intro out inn sightings seen
  have hpossible : ∀ m ∈ moments [] sightings, m.Possible := by
    simp [sightings, moments, Moment.Possible, Moment.after, out, inn]
  obtain ⟨honeWay, hfull, htrace, hpeak⟩ := verdict_watch 1 hpossible
  refine ⟨hpossible, rfl, ?_, hfull, ?_, hpeak⟩
  · by_contra hnone
    have hzero := honeWay.2 fun m hm hkind u hu hd => hnone ⟨m, hm, hkind, u, hu, hd⟩
    cases hzero
  · rw [htrace]
    rfl

end Occupancy

end HalfDuplex

import HalfDuplex.Proofs.Consistent
import HalfDuplex.Proofs.Guarded
import HalfDuplex.Proofs.Streak

/-!
# A bus stays within machine words

If the settings are machine words and a run has no more operations than a machine word can count,
no guard of the run finds anything.  Each count has its own reason: the counters follow from the
numbers that have been given out, the held slots from the capacity, the waiters again from the
numbers, and the streak from the choice of the direction (`Bus.Paced`), however long the run.

* `Bus.Books.tally_le` : no counter exceeds the numbers given out, or the refused releases.
* `Bus.safe_run` : all moments of such a run are safe.
* `Bus.Countable` : the sums that are read off a bus are machine words.
* `Bus.guarded_run` : the guarded run is the run, and every sum is one along the way.
-/

namespace HalfDuplex

namespace Bus

variable {b : Bus}

/-! ### The counters -/

/-- No counter exceeds the numbers that were given out, or the refused releases. -/
theorem Books.tally_le (h : b.Books) :
    ∀ n ∈ b.stats.tallies, n ≤ max b.nextTicket b.stats.rejectedReleases := by
  obtain ⟨⟨hway, hdirection, hpriority⟩, hissued, hcycles, hswitches⟩ := h
  have hadmissions : b.stats.admissions ≤ b.nextTicket := by
    rw [← hissued]
    omega
  have hwithdrawn : b.stats.withdrawn ≤ b.nextTicket := by
    rw [← hissued]
    omega
  generalize b.nextTicket = next at hadmissions hwithdrawn ⊢
  simp only [Stats.tallies, List.forall_mem_cons]
  refine ⟨?_, ?_, ?_, ?_, ?_, ?_, ?_, ?_, ?_, ?_, ?_, by simp⟩ <;> omega

theorem length_run (b : Bus) (ops : List Op) : (b.run ops).1.length = ops.length := by
  induction ops generalizing b with
  | nil => rfl
  | cons op ops ih => exact congrArg (· + 1) (ih (b.step op).2)

theorem nextTicket_run_le {config : Config} (hc : config.valid = true) (ops : List Op) :
    ((Bus.new config).run ops).2.nextTicket ≤ ops.length := by
  rw [← length_issues_run config ops hc, issues]
  refine Nat.le_trans (List.length_filterMap_le _ _) ?_
  rw [List.length_zip]
  exact Nat.min_le_left _ _

theorem rejected_run_le (config : Config) (ops : List Op) :
    ((Bus.new config).run ops).2.stats.rejectedReleases ≤ ops.length := by
  rw [rejected_run, ← countP_run refused_step, ← length_run (Bus.new config) ops]
  exact List.countP_le_length

/-! ### Every moment is safe -/

variable {config : Config} {ops : List Op}

theorem held_le_active (h : b.SlotsFit) (c : Cell) : b.held.get c ≤ b.active := by
  rw [h.held_eq, ← h.holders_length]
  exact List.countP_le_length

/-- **All moments are safe** in a run that has no more operations than a machine word can count, on
a bus whose settings are machine words. -/
theorem safe_run (hc : config.valid = true) (hcap : config.capacity ≤ Word.max64)
    (hlimit : config.streakLimit ≤ Word.max32) (hlen : ops.length ≤ Word.max64) :
    ∀ m ∈ (Bus.new config).history ops, m.Safe := by
  have hreach := reachable_new hc
  have hlegal := hreach.legal ops
  have hkept := (kept_performAll (P := fun s => s.Books ∧ s.Paced ∧ s.config = config)
    (fun s m hs hm h => ⟨h.1.perform hm, h.2.1.perform hs hm, by rw [config_perform, h.2.2]⟩)
    hreach.sound ⟨books_new config, Nat.zero_le _, rfl⟩ hlegal).1
  have hnumbers := (le_performAll (b := Bus.new config) (f := Bus.nextTicket)
    le_nextTicket_perform ((Bus.new config).trace ops)).2
  have hrefused := (le_performAll (b := Bus.new config) (f := fun s => s.stats.rejectedReleases)
    (fun s m => by rw [rejected_perform]; exact Nat.le_add_right _ _)
    ((Bus.new config).trace ops)).2
  rw [← run_eq_performAll] at hnumbers hrefused
  intro m hm
  obtain ⟨hmlegal, hsound⟩ := hreach.history ops m hm
  obtain ⟨hbooks, hpaced, hconfig⟩ := hkept m hm
  have hafter : m.after.Sound := hsound.perform hmlegal
  have hnumber : m.after.nextTicket ≤ Word.max64 :=
    Nat.le_trans (hnumbers m hm) (Nat.le_trans (nextTicket_run_le hc ops) hlen)
  have hrefusal : m.after.stats.rejectedReleases ≤ Word.max64 :=
    Nat.le_trans (hrefused m hm) (Nat.le_trans (rejected_run_le config ops) hlen)
  have hactive : m.after.active ≤ Word.max64 := by
    refine Nat.le_trans hafter.slots.active_le ?_
    rwa [hconfig]
  refine ⟨hmlegal, hsound, hnumber, hactive, fun c => ?_, ?_, fun n hn => ?_⟩
  · exact Nat.le_trans (held_le_active hafter.slots c) hactive
  · rw [Paced, hconfig] at hpaced
    exact Nat.le_trans hpaced (Nat.max_le.2 ⟨by decide, hlimit⟩)
  · exact Nat.le_trans (hbooks.tally_le n hn) (Nat.max_le.2 ⟨hnumber, hrefusal⟩)

/-! ### Sums -/

/-- The sums that are read off a bus and off its snapshot are machine words, and they come out as
the counts that the bus keeps. -/
structure Countable (b : Bus) : Prop where
  waiting : b.waitingCounts.total = .ok b.totalWaiting
  held : b.held.total = .ok b.active
  /-- The slots held in one direction. -/
  held_direction : ∀ d, Word.sum [b.held.get ⟨d, .elevated⟩, b.held.get ⟨d, .normal⟩] =
    .ok (b.held.get ⟨d, .elevated⟩ + b.held.get ⟨d, .normal⟩)
  check : b.check = .ok none
  snapshot_waiting : b.snapshot.waiting.total = .ok b.totalWaiting
  snapshot_held : b.snapshot.held.total = .ok b.active
  snapshot_isIdle : b.snapshot.isIdle = .ok b.isIdle

theorem Reachable.countable (h : b.Reachable) (hcap : b.config.capacity ≤ Word.max64)
    (hnumber : b.nextTicket ≤ Word.max64) : b.Countable := by
  have hsum := h.sound.slots.held_sum
  have hactive : b.active ≤ Word.max64 := Nat.le_trans h.sound.slots.active_le hcap
  have hwaiting : b.totalWaiting ≤ Word.max64 := by
    refine Nat.le_trans ?_ hnumber
    rw [← h.books.issued]
    exact Nat.le_add_left _ _
  have hheld : b.held.total = .ok b.active := by
    rw [total_eq_ok (hsum.symm ▸ hactive), hsum]
  have hqueue : b.waitingCounts.total = .ok b.totalWaiting := total_eq_ok hwaiting
  refine ⟨hqueue, hheld, fun d => ?_, h.check hcap, hqueue, hheld, ?_⟩
  · have hle : b.held.get ⟨d, .elevated⟩ + b.held.get ⟨d, .normal⟩ ≤ Word.max64 := by
      refine Nat.le_trans ?_ (hsum.symm ▸ hactive : b.held.sum ≤ Word.max64)
      cases d <;> simp only [PerCell.sum, PerCell.get] <;> omega
    exact if_pos hle
  · have hsnapshot : b.snapshot.waiting.total = .ok b.totalWaiting := hqueue
    have hsame : b.snapshot.active = b.active := rfl
    rw [Snapshot.isIdle, hsnapshot, hsame, isIdle]
    by_cases h0 : b.active = 0
    · rw [if_pos h0, decide_eq_true h0]
      rfl
    · rw [if_neg h0, decide_eq_false h0]
      rfl

/-- Every bus between the operations of a run is one that a run leads to, and it has given out no
more numbers than the bus in the end. -/
theorem Reachable.stages (h : b.Reachable) (ops : List Op) : ∀ s ∈ b.stages ops,
    s.Reachable ∧ s.config = b.config ∧ s.nextTicket ≤ (b.run ops).2.nextTicket := by
  induction ops generalizing b with
  | nil =>
    intro s hmem
    rw [List.mem_singleton.1 hmem]
    exact ⟨h, rfl, Nat.le_refl _⟩
  | cons op ops ih =>
    have hrest := ih (h.step op)
    rw [config_step] at hrest
    rw [Bus.stages, List.forall_mem_cons]
    refine ⟨⟨h, rfl, ?_⟩, hrest⟩
    rw [run_eq_performAll]
    exact (le_performAll le_nextTicket_perform _).1

/-- **A bus stays within machine words.**  The capacity is a 64-bit word, the streak limit a 32-bit
word, and the run has at most as many operations as a 64-bit word can count, with any arguments.
Then no guard of the run finds anything: no sum overflows, no difference falls below zero, every
slot is given away where one is free and in the running direction, and a direction is only chosen
for the empty bus.  Between the operations every sum that the bus or its snapshot is asked for is a
machine word, the bus passes its own check, and its snapshot is idle exactly if the bus is. -/
theorem guarded_run (hc : config.valid = true) (hcap : config.capacity ≤ Word.max64)
    (hlimit : config.streakLimit ≤ Word.max32) (hlen : ops.length ≤ Word.max64) :
    Guard.run (Bus.new config) ops = .ok ((Bus.new config).run ops) ∧
      ∀ s ∈ (Bus.new config).stages ops, s.Countable := by
  refine ⟨Guard.run_eq (safe_run hc hcap hlimit hlen), fun s hs => ?_⟩
  obtain ⟨hreach, hconfig, hnumber⟩ := (reachable_new hc).stages ops s hs
  refine hreach.countable ?_ ?_
  · rw [hconfig]
    exact hcap
  · exact Nat.le_trans hnumber (Nat.le_trans (nextTicket_run_le hc ops) hlen)

/-- With one slot and the largest streak limit: an elevated waiter of the last direction feeds the
streak, and a release without a slot is refused. -/
theorem guarded_run_one_slot :
    (⟨1, .alternate, Word.max32, false⟩ : Config).valid = true ∧
      let b := Bus.new ⟨1, .alternate, Word.max32, false⟩
      let ops : List Op := [.request ⟨.outbound, .normal⟩, .request ⟨.inbound, .normal⟩,
        .request ⟨.outbound, .elevated⟩, .releaseTicket 0, .releaseTicket 0]
      ops.length ≤ Word.max64 ∧ Guard.run b ops = .ok (b.run ops) ∧ (b.run ops).2.streak = 1 ∧
        (b.run ops).2.snapshot.isIdle = .ok (b.run ops).2.isIdle := by
  refine ⟨by decide, ?_⟩
  intro b ops
  obtain ⟨hrun, hstages⟩ := @guarded_run ⟨1, .alternate, Word.max32, false⟩ ops (by decide)
    (by decide) (by decide) (by decide)
  have hend : (b.run ops).2 ∈ b.stages ops := by decide
  exact ⟨by decide, hrun, by decide, (hstages _ hend).snapshot_isIdle⟩

end Bus

end HalfDuplex

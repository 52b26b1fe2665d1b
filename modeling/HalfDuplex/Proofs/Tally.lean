import HalfDuplex.Proofs.Balance

/-!
# What the statistics count

The counters of a bus are never read by it.  They tell what happened: each counts the moves of one
kind, and the peak is the highest number of held slots.

* `Bus.tally_performAll` : a counter that counts one move right counts any moves right.
* `Bus.admissions_step`, `Bus.queuedAdmissions_step` : the admissions that an operation adds, in
  terms of what its answer tells.
* `Bus.pickedUp_step`, `Bus.pickedUpQueued_step` : the same for the admissions whose callers know of
  them.
* `Bus.peakActive_step`, `Bus.Reachable.peak` : the peak never falls, and it lies between the held
  slots and the capacity.
-/

namespace HalfDuplex

namespace Bus

variable {b : Bus} {m : Move} {ms : List Move} {op : Op}

/-! ### One move -/

theorem occupy_admissions (b : Bus) (t : Ticket) (c : Cell) (why : Option Reason) :
    (b.occupy t c why).stats.admissions = b.stats.admissions + 1 := by
  unfold occupy beginCycle
  split_ifs <;> rfl

theorem occupy_queued (b : Bus) (t : Ticket) (c : Cell) (why : Option Reason) :
    (b.occupy t c why).stats.queued = b.stats.queued := by
  unfold occupy beginCycle
  split_ifs <;> rfl

theorem occupy_peakActive (b : Bus) (t : Ticket) (c : Cell) (why : Option Reason) :
    (b.occupy t c why).stats.peakActive = max b.stats.peakActive (b.active + 1) := by
  unfold occupy beginCycle
  split_ifs <;> rfl

theorem admissions_perform (b : Bus) (m : Move) :
    (b.perform m).stats.admissions = b.stats.admissions + m.admitted?.toList.length := by
  cases m with
  | arrive t c => exact occupy_admissions _ t c none
  | board t c why => exact occupy_admissions _ t c why
  | enqueue | collect | vacate | leave | refuse => rfl

theorem queuedAdmissions_perform (b : Bus) (m : Move) :
    (b.perform m).stats.queued = b.stats.queued + m.boarded?.toList.length := by
  cases m with
  | arrive t c => exact occupy_queued _ t c none
  | board t c why => exact congrArg (· + 1) (occupy_queued _ t c why)
  | enqueue | collect | vacate | leave | refuse => rfl

theorem peakActive_perform (b : Bus) (m : Move) : (b.perform m).stats.peakActive =
    match m with
    | .arrive _ _ | .board _ _ _ => max b.stats.peakActive (b.active + 1)
    | _ => b.stats.peakActive := by
  cases m with
  | arrive t c => exact occupy_peakActive _ t c none
  | board t c why => exact occupy_peakActive _ t c why
  | enqueue | collect | vacate | leave | refuse => rfl

/-! ### Admissions -/

/-- A counter that counts what a move brings about counts what a row of moves brings about. -/
theorem tally_performAll {α : Type} {counter : Stats → Nat} {f : Move → Option α}
    (hmove : ∀ s m, counter (perform s m).stats = counter s.stats + (f m).toList.length) (b : Bus)
    (ms : List Move) :
    counter (b.performAll ms).stats = counter b.stats + (ms.filterMap f).length := by
  induction ms generalizing b with
  | nil => rfl
  | cons m ms ih =>
    rw [performAll_cons, ih, hmove, Nat.add_assoc]
    cases hf : f m with
    | none => rw [List.filterMap_cons_none hf, Option.toList_none, List.length_nil, Nat.zero_add]
    | some x =>
      rw [List.filterMap_cons_some hf, List.length_cons, Option.toList_some, List.length_singleton,
        Nat.add_comm 1]

/-- An operation adds the admissions of those who arrived and of those who were woken. -/
theorem admissions_step (b : Bus) (op : Op) :
    (b.step op).2.stats.admissions = b.stats.admissions +
      ((op.arrived? (b.step op).1).toList.length + (b.step op).1.woken.length) := by
  have hsplit := (admitted_perm (b.moves op)).length_eq
  rw [List.length_append, List.length_map, List.length_map] at hsplit
  rw [(tells_step b op).arrived, woken_step, ← hsplit, step_eq_performAll]
  exact tally_performAll admissions_perform b (b.moves op)

theorem queuedAdmissions_step (b : Bus) (op : Op) :
    (b.step op).2.stats.queued = b.stats.queued + (b.step op).1.woken.length := by
  rw [woken_step, step_eq_performAll]
  exact tally_performAll queuedAdmissions_perform b (b.moves op)

/-- The admissions but for grants that wait to be picked up: who arrives and who picks up its grant
adds one. -/
theorem pickedUp_step (h : b.Reachable) (op : Op) :
    (b.step op).2.stats.admissions + b.granted.length =
      b.stats.admissions + (b.step op).2.granted.length +
        (op.arrived? (b.step op).1).toList.length +
        (op.collected? (b.step op).1).toList.length := by
  have hgrants := (granted_step h op).length_eq
  rw [List.length_append, List.length_append] at hgrants
  rw [admissions_step]
  omega

theorem pickedUpQueued_step (h : b.Reachable) (op : Op) :
    (b.step op).2.stats.queued + b.granted.length =
      b.stats.queued + (b.step op).2.granted.length +
        (op.collected? (b.step op).1).toList.length := by
  have hgrants := (granted_step h op).length_eq
  rw [List.length_append, List.length_append] at hgrants
  rw [queuedAdmissions_step]
  omega

/-! ### The peak -/

theorem le_peakActive_perform (b : Bus) (m : Move) :
    b.stats.peakActive ≤ (b.perform m).stats.peakActive := by
  rw [peakActive_perform]
  split
  · exact Nat.le_max_left _ _
  · exact Nat.le_max_left _ _
  · exact Nat.le_refl _

theorem peakActive_step (b : Bus) (op : Op) :
    b.stats.peakActive ≤ (b.step op).2.stats.peakActive := by
  rw [step_eq_performAll]
  exact (le_performAll (f := fun s => s.stats.peakActive) le_peakActive_perform (b.moves op)).1

/-- The peak is at least the number of held slots and no more than there are. -/
structure Peaked (b : Bus) : Prop where
  active_le : b.active ≤ b.stats.peakActive
  le_capacity : b.stats.peakActive ≤ b.config.capacity

theorem Peaked.perform (h : b.Peaked) (hslots : b.SlotsFit) (hm : b.Legal m) :
    (b.perform m).Peaked := by
  have hactive := h.active_le
  have hpeak := h.le_capacity
  cases m with
  | arrive t c =>
    obtain ⟨hroom, -⟩ := hslots.room_of_admitted hm rfl
    constructor
    · rw [active_perform, peakActive_perform]
      exact Nat.le_max_right _ _
    · rw [peakActive_perform, config_perform]
      exact Nat.max_le.2 ⟨hpeak, hroom⟩
  | board t c why =>
    obtain ⟨hroom, -⟩ := hslots.room_of_admitted hm rfl
    constructor
    · rw [active_perform, peakActive_perform]
      exact Nat.le_max_right _ _
    · rw [peakActive_perform, config_perform]
      exact Nat.max_le.2 ⟨hpeak, hroom⟩
  | vacate t c => exact ⟨Nat.le_trans (Nat.sub_le _ _) hactive, hpeak⟩
  | enqueue | collect | leave | refuse => exact ⟨hactive, hpeak⟩

theorem Peaked.performAll (h : b.Peaked) (hsound : b.Sound)
    (hms : ∀ m ∈ b.moments ms, m.Legal) : (b.performAll ms).Peaked :=
  (kept_performAll (fun _ _ hs hm hp => hp.perform hs.slots hm) hsound h hms).2

theorem Reachable.peak (h : b.Reachable) : b.Peaked := by
  obtain ⟨hc, ops, hrun⟩ := h
  have hsound := sound_new hc
  have hnew : (Bus.new b.config).Peaked := ⟨Nat.le_refl _, Nat.zero_le _⟩
  rw [← hrun, run_eq_performAll]
  exact hnew.performAll hsound (legal_trace hsound (settled_new _) ops).1

end Bus

end HalfDuplex

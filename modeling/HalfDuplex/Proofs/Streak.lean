import HalfDuplex.Proofs.Cycle
import Mathlib.Data.List.Induction

/-!
# What the streak counts

The bus keeps one number and one direction of all the cycles that it has begun.  The number is the
length of a suffix of their sequence: of the cycles behind the last one that was not begun for
elevated waiters of the direction served last.  The choice of the direction looks at this number,
and so keeps it within the limit.

* `LongestSuffix` : the length of the longest suffix whose members all satisfy a predicate.
* `Service.counted` : after any sequence of cycles, what is remembered of them is that length.
* `Bus.Paced.perform` : every legal move keeps the streak within its limit.
* `Bus.streak_run` : the meaning of the streak, and its bound, after any run.
-/

namespace HalfDuplex

/-- `n` is the length of the longest suffix of `l` whose members all satisfy `P`. -/
structure LongestSuffix {α : Type} (P : α → Prop) (l : List α) (n : Nat) : Prop where
  reached : ∃ s, s <:+ l ∧ (∀ a ∈ s, P a) ∧ s.length = n
  longest : ∀ s, s <:+ l → (∀ a ∈ s, P a) → s.length ≤ n

namespace LongestSuffix

variable {α : Type} {P : α → Prop} {l : List α} {n : Nat} {a : α}

theorem nil : LongestSuffix P [] 0 where
  reached := ⟨[], List.nil_suffix, by simp, rfl⟩
  longest s hs _ := Nat.le_of_eq (congrArg List.length (List.suffix_nil.1 hs))

theorem concat (h : LongestSuffix P l n) (ha : P a) : LongestSuffix P (l ++ [a]) (n + 1) where
  reached := by
    obtain ⟨s, hs, hP, hlen⟩ := h.reached
    refine ⟨s ++ [a], List.suffix_append_self_iff.2 hs, ?_, ?_⟩
    · simpa [or_imp, forall_and, ha] using hP
    · simp [hlen]
  longest s hs hP := by
    rcases List.suffix_concat_iff.1 hs with rfl | ⟨t, rfl, ht⟩
    · exact Nat.zero_le _
    · rw [List.length_append, List.length_singleton]
      exact Nat.succ_le_succ (h.longest t ht fun b hb => hP b (List.mem_append_left _ hb))

theorem concat_not (ha : ¬ P a) : LongestSuffix P (l ++ [a]) 0 where
  reached := ⟨[], List.nil_suffix, by simp, rfl⟩
  longest s hs hP := by
    rcases List.suffix_concat_iff.1 hs with rfl | ⟨t, rfl, -⟩
    · exact Nat.le_refl _
    · exact absurd (hP a List.mem_concat_self) ha

end LongestSuffix

/-! ### The meaning of the streak -/

namespace Service

variable {s : Service} {k : Cycle} {ks : List Cycle}

/-- The cycle was begun for elevated waiters of the direction that was served last. -/
def Counts (s : Service) (k : Cycle) : Prop :=
  k.why = some .elevated ∧ s.last = some k.direction

/-- What is remembered of a sequence of cycles: the direction of the last one, and how many at the
end were begun for elevated waiters of that direction. -/
structure Remembers (s : Service) (ks : List Cycle) : Prop where
  last : s.last = ks.getLast?.map Cycle.direction
  streak : LongestSuffix s.Counts ks s.streak

theorem Remembers.after (h : s.Remembers ks) (k : Cycle) : (s.after k).Remembers (ks ++ [k]) where
  last := by simp [Service.after]
  streak := by
    by_cases hwhy : k.why = some .elevated
    · have hcounts : (s.after k).Counts k := ⟨hwhy, rfl⟩
      by_cases hlast : s.last = some k.direction
      -- the direction stays, so the cycles that counted still do
      · have hsame : (s.after k).Counts = s.Counts := by
          funext k'
          simp only [Counts, Service.after, hlast]
        have hstreak : (s.after k).streak = s.streak + 1 := by simp [Service.after, hwhy, hlast]
        rw [hstreak]
        exact (hsame ▸ h.streak).concat hcounts
      -- the direction changes, so the cycle before does not count any more
      · have hstreak : (s.after k).streak = 0 + 1 := by simp [Service.after, hwhy, hlast]
        rw [hstreak]
        refine LongestSuffix.concat ?_ hcounts
        rcases List.eq_nil_or_concat' ks with rfl | ⟨ks, k', rfl⟩
        · exact .nil
        · refine .concat_not fun hk' => hlast ?_
          rw [h.last, List.getLast?_concat, Option.map_some]
          exact hk'.2.symm
    · have hstreak : (s.after k).streak = 0 := by simp [Service.after, hwhy]
      rw [hstreak]
      exact .concat_not fun hk => hwhy hk.1

/-- After any sequence of cycles the streak counts its last ones. -/
theorem remembers_foldl (ks : List Cycle) :
    (ks.foldl Service.after ⟨none, 0⟩).Remembers ks := by
  induction ks using List.reverseRecOn with
  | nil => exact ⟨rfl, .nil⟩
  | append_singleton ks k ih =>
    rw [List.foldl_append]
    exact ih.after k

end Service

namespace Bus

/-- The streak is within its limit, or has just begun. -/
def Paced (b : Bus) : Prop := b.streak ≤ max 1 b.config.streakLimit

variable {b : Bus} {d : Direction} {m : Move}

/-! ### Within its limit -/

/-- A direction that was chosen for its elevated waiters had not used up its streak. -/
theorem not_exhausted (hn : b.nextTurn = some (d, .elevated)) : b.exhausted d = false := by
  have hc : b.contested = (d, .elevated) := contested_of_reason hn nofun
  unfold contested at hc
  split at hc
  case h_1 e _ =>
    split_ifs at hc with hx
    · simp at hc
    · obtain ⟨rfl, -⟩ := Prod.mk.inj hc
      simpa using hx
  case h_2 => split at hc <;> simp at hc

/-- What a bus chooses for elevated waiters keeps the streak within its limit. -/
theorem streak_after_le (hn : b.nextTurn = some (d, .elevated)) :
    (b.service.after ⟨d, some .elevated⟩).streak ≤ max 1 b.config.streakLimit := by
  have hnot := not_exhausted hn
  by_cases hlast : b.lastServed = some d
  · have hlt : b.streak < b.config.streakLimit := by
      simpa [exhausted, hlast] using hnot
    have hafter : (b.service.after ⟨d, some .elevated⟩).streak = b.streak + 1 := by
      simp [Service.after, service, hlast]
    rw [hafter]
    exact Nat.le_trans hlt (Nat.le_max_right _ _)
  · have hafter : (b.service.after ⟨d, some .elevated⟩).streak = 1 := by
      simp [Service.after, service, hlast]
    rw [hafter]
    exact Nat.le_max_left _ _

theorem Paced.perform (h : b.Paced) (hsound : b.Sound) (hm : b.Legal m) :
    (b.perform m).Paced := by
  have hservice : (b.perform m).streak =
      ((Moment.cycle? ⟨b, m⟩).toList.foldl Service.after b.service).streak :=
    congrArg Service.streak (service_perform b m)
  rw [Paced, config_perform, hservice]
  cases hm with
  | @arrive c =>
    rw [cycle?_arrive]
    split_ifs
    · exact Nat.zero_le _
    · exact h
  | @board t c why _ _ ht =>
    rw [cycle?_board]
    split_ifs with h0
    · obtain ⟨r, rfl, hn⟩ := ht.chosen hsound.slots h0
      by_cases hr : r = .elevated
      · subst hr
        exact streak_after_le hn
      · have hafter : (b.service.after ⟨c.direction, some r⟩).streak = 0 := by
          simp [Service.after, hr]
        exact hafter ▸ Nat.zero_le _
    · exact h
  | enqueue | collect | vacate | leave | refuse =>
    rw [cycle?_of_not_admitted rfl]
    exact h

/-! ### After any run -/

variable {config : Config}

theorem remembers_performAll (config : Config) (ms : List Move) :
    ((Bus.new config).performAll ms).service.Remembers ((Bus.new config).begun ms) := by
  rw [service_performAll]
  exact Service.remembers_foldl _

theorem remembers_run (config : Config) (ops : List Op) :
    ((Bus.new config).run ops).2.service.Remembers ((Bus.new config).cycles ops) := by
  rw [run_eq_performAll]
  exact remembers_performAll config _

theorem paced_run (hc : config.valid = true) (ops : List Op) :
    ((Bus.new config).run ops).2.Paced := by
  have hlegal := (legal_trace (sound_new hc) (settled_new config) ops).1
  rw [run_eq_performAll]
  exact (kept_performAll (fun _ _ hs hm h => h.perform hs hm) (sound_new hc) (Nat.zero_le _)
    hlegal).2

/-- **What the streak counts.**  After any run it is the length of the longest suffix of the cycles
begun so far that were all begun for elevated waiters of the direction served last; and it is no
more than the streak limit, or than one if the limit is zero. -/
theorem streak_run (hc : config.valid = true) (ops : List Op) :
    let b := ((Bus.new config).run ops).2
    LongestSuffix (fun k : Cycle => k.why = some .elevated ∧ b.lastServed = some k.direction)
        ((Bus.new config).cycles ops) b.streak ∧
      b.streak ≤ max 1 config.streakLimit := by
  intro b
  have hbound : b.streak ≤ max 1 b.config.streakLimit := paced_run hc ops
  rw [config_run] at hbound
  exact ⟨(remembers_run config ops).streak, hbound⟩

/-- Three cycles in a row are begun for elevated waiters.  The first of them was for the other
direction, so the streak is two, which is its limit. -/
theorem streak_run_two :
    let config : Config := ⟨1, .alternate, 2, false⟩
    let ops : List Op := [.request ⟨.outbound, .normal⟩, .request ⟨.outbound, .normal⟩,
      .request ⟨.inbound, .elevated⟩, .releaseTicket 0, .request ⟨.outbound, .elevated⟩,
      .request ⟨.inbound, .normal⟩, .releaseTicket 2, .request ⟨.outbound, .elevated⟩,
      .releaseTicket 3]
    let b := ((Bus.new config).run ops).2
    config.valid = true ∧
      (Bus.new config).cycles ops = [⟨.outbound, none⟩, ⟨.inbound, some .elevated⟩,
        ⟨.outbound, some .elevated⟩, ⟨.outbound, some .elevated⟩] ∧
      LongestSuffix (fun k : Cycle => k.why = some .elevated ∧ b.lastServed = some k.direction)
        ((Bus.new config).cycles ops) 2 ∧ 2 ≤ max 1 config.streakLimit := by
  intro config ops b
  have htwo : b.streak = 2 := by decide
  have hvalid : config.valid = true := by decide
  have hrun := streak_run hvalid ops
  exact ⟨by decide, by decide, htwo ▸ hrun.1, htwo ▸ hrun.2⟩

end Bus

end HalfDuplex

import HalfDuplex.Proofs.Legal
import Mathlib.Data.List.Nodup

/-!
# Tickets are in one place

A ticket is new, or waits in one queue, or has been admitted or withdrawn; the queues are in
arrival order.

* `Bus.TicketsFit` : the tickets of a bus are kept apart.
* `Bus.TicketsFit.perform` : every legal move keeps them apart.
* `Bus.TicketsFit.not_waiting_of_admitted` : who takes a slot waits no longer.
-/

namespace HalfDuplex

namespace Bus

/-- The tickets of a bus are kept apart and the queues are in arrival order. -/
structure TicketsFit (b : Bus) : Prop where
  sorted : ∀ c, (b.waiting.get c).Pairwise (· < ·)
  /-- No ticket waits in two queues. -/
  one_queue : ∀ {t c c'}, t ∈ b.waiting.get c → t ∈ b.waiting.get c' → c = c'
  not_holding : ∀ {t c}, t ∈ b.waiting.get c → t ∉ b.holders.map Prod.fst
  not_granted : ∀ {t c}, t ∈ b.waiting.get c → t ∉ b.granted
  /-- No ticket holds two slots. -/
  holders_nodup : (b.holders.map Prod.fst).Nodup
  waiting_lt : ∀ {t c}, t ∈ b.waiting.get c → t < b.nextTicket
  holding_lt : ∀ {t}, t ∈ b.holders.map Prod.fst → t < b.nextTicket
  granted_lt : ∀ {t}, t ∈ b.granted → t < b.nextTicket

variable {b : Bus} {m : Move}

/-! ### Where the tickets of a bus come from -/

theorem le_nextTicket_perform (b : Bus) (m : Move) : b.nextTicket ≤ (b.perform m).nextTicket := by
  rw [nextTicket_perform]
  split
  · exact Nat.le_succ _
  · exact Nat.le_succ _
  · exact Nat.le_refl _

/-- Only the newest ticket joins a queue. -/
theorem mem_waiting_perform (hm : b.Legal m) {t : Ticket} {c : Cell}
    (h : t ∈ (b.perform m).waiting.get c) :
    t ∈ b.waiting.get c ∨ t = b.nextTicket ∧ m = .enqueue t c := by
  rw [waiting_perform] at h
  cases hm with
  | enqueue =>
    rw [PerCell.get_set] at h
    split_ifs at h with hc
    · subst hc
      rcases List.mem_append.1 h with h | h
      · exact Or.inl h
      · rw [List.mem_singleton] at h
        subst h
        exact Or.inr ⟨rfl, rfl⟩
    · exact Or.inl h
  | board =>
    rw [PerCell.get_set] at h
    split_ifs at h with hc
    · subst hc
      exact Or.inl (List.mem_of_mem_tail h)
    · exact Or.inl h
  | leave =>
    rw [PerCell.get_set] at h
    split_ifs at h with hc
    · subst hc
      exact Or.inl (List.mem_of_mem_erase h)
    · exact Or.inl h
  | arrive | collect | vacate | refuse => exact Or.inl h

theorem mem_holders_perform {t : Ticket} (h : t ∈ (b.perform m).holders.map Prod.fst) :
    t ∈ b.holders.map Prod.fst ∨ ∃ c, m.admitted? = some (t, c) := by
  rw [holders_perform] at h
  cases m with
  | arrive u c =>
    rcases List.mem_cons.1 h with rfl | h
    · exact Or.inr ⟨c, rfl⟩
    · exact Or.inl h
  | board u c why =>
    rcases List.mem_cons.1 h with rfl | h
    · exact Or.inr ⟨c, rfl⟩
    · exact Or.inl h
  | vacate u c => exact Or.inl ((List.filter_sublist.map _).mem h)
  | enqueue | collect | leave | refuse => exact Or.inl h

theorem mem_granted_perform {t : Ticket} (h : t ∈ (b.perform m).granted) :
    t ∈ b.granted ∨ m.boarded? = some t := by
  rw [granted_perform] at h
  cases m with
  | board u c why =>
    rcases List.mem_cons.1 h with rfl | h
    · exact Or.inr rfl
    · exact Or.inl h
  | collect u => exact Or.inl (List.mem_filter.1 h).1
  | arrive | enqueue | vacate | leave | refuse => exact Or.inl h

theorem admitted?_of_boarded? {t : Ticket} (h : m.boarded? = some t) :
    ∃ c, m.admitted? = some (t, c) := by
  cases m with
  | board u c why =>
    cases h
    exact ⟨c, rfl⟩
  | arrive | enqueue | collect | vacate | leave | refuse => cases h

namespace TicketsFit

variable (h : b.TicketsFit)

include h

/-- A ticket that takes a slot is new, or the smallest in its queue. -/
theorem new_or_front (hm : b.Legal m) {t : Ticket} {c : Cell} (ha : m.admitted? = some (t, c)) :
    t = b.nextTicket ∨ t ∈ b.waiting.get c ∧ ∀ u ∈ (b.waiting.get c).tail, t < u := by
  cases hm with
  | arrive =>
    cases ha
    exact Or.inl rfl
  | board hf =>
    cases ha
    exact Or.inr ⟨hf.mem, fun u hu => hf.lt_of_mem_tail (h.sorted c) hu⟩
  | enqueue | collect | vacate | leave | refuse => cases ha

theorem lt_nextTicket_of_admitted (hm : b.Legal m) {t : Ticket} {c : Cell}
    (ha : m.admitted? = some (t, c)) : t < (b.perform m).nextTicket := by
  have hle := le_nextTicket_perform b m
  rcases h.new_or_front hm ha with rfl | ⟨ht, -⟩
  · cases hm with
    | arrive =>
      rw [nextTicket_perform]
      exact Nat.lt_succ_self _
    | board hf =>
      cases ha
      exact absurd (h.waiting_lt hf.mem) (Nat.lt_irrefl _)
    | enqueue | collect | vacate | leave | refuse => cases ha
  · exact Nat.lt_of_lt_of_le (h.waiting_lt ht) hle

theorem not_holding_of_admitted (hm : b.Legal m) {t : Ticket} {c : Cell}
    (ha : m.admitted? = some (t, c)) : t ∉ b.holders.map Prod.fst := by
  rcases h.new_or_front hm ha with rfl | ⟨ht, -⟩
  · exact fun hh => Nat.lt_irrefl _ (h.holding_lt hh)
  · exact h.not_holding ht

theorem not_waiting_of_admitted (hm : b.Legal m) {t : Ticket} {c c' : Cell}
    (ha : m.admitted? = some (t, c)) : t ∉ (b.perform m).waiting.get c' := by
  intro hw
  rw [waiting_perform] at hw
  cases hm with
  | arrive =>
    cases ha
    exact Nat.lt_irrefl _ (h.waiting_lt hw)
  | board hf =>
    cases ha
    rw [PerCell.get_set] at hw
    split_ifs at hw with hc
    · exact Nat.lt_irrefl _ (hf.lt_of_mem_tail (h.sorted c) hw)
    · exact hc (h.one_queue hw hf.mem)
  | enqueue | collect | vacate | leave | refuse => cases ha

/-! ### Every legal move keeps the tickets apart -/

theorem sorted_perform (hm : b.Legal m) (c : Cell) :
    ((b.perform m).waiting.get c).Pairwise (· < ·) := by
  rw [waiting_perform]
  cases hm with
  | @enqueue c' =>
    rw [PerCell.get_set]
    split_ifs with hc
    · refine List.pairwise_append.2 ⟨h.sorted c', List.pairwise_singleton _ _, ?_⟩
      intro t ht u hu
      rw [List.mem_singleton.1 hu]
      exact h.waiting_lt ht
    · exact h.sorted c
  | @board _ c' =>
    rw [PerCell.get_set]
    split_ifs with hc
    · exact (h.sorted c').sublist (List.tail_sublist _)
    · exact h.sorted c
  | @leave _ c' =>
    rw [PerCell.get_set]
    split_ifs with hc
    · exact (h.sorted c').sublist List.erase_sublist
    · exact h.sorted c
  | arrive | collect | vacate | refuse => exact h.sorted c

theorem holders_nodup_perform (hm : b.Legal m) : ((b.perform m).holders.map Prod.fst).Nodup := by
  have hadm : ∀ t c, m.admitted? = some (t, c) → t ∉ b.holders.map Prod.fst :=
    fun t c => h.not_holding_of_admitted hm
  rw [holders_perform]
  cases m with
  | arrive t c => exact List.nodup_cons.2 ⟨hadm t c rfl, h.holders_nodup⟩
  | board t c why => exact List.nodup_cons.2 ⟨hadm t c rfl, h.holders_nodup⟩
  | vacate t c => exact h.holders_nodup.sublist (List.filter_sublist.map _)
  | enqueue | collect | leave | refuse => exact h.holders_nodup

/-- Every legal move keeps the tickets of a bus apart. -/
theorem perform (hm : b.Legal m) : (b.perform m).TicketsFit where
  sorted := h.sorted_perform hm
  one_queue {t c c'} hc hc' := by
    rcases mem_waiting_perform hm hc with hc | ⟨rfl, he⟩
    · rcases mem_waiting_perform hm hc' with hc' | ⟨rfl, -⟩
      · exact h.one_queue hc hc'
      · exact absurd (h.waiting_lt hc) (Nat.lt_irrefl _)
    · rcases mem_waiting_perform hm hc' with hc' | ⟨-, he'⟩
      · exact absurd (h.waiting_lt hc') (Nat.lt_irrefl _)
      -- the new ticket joins one queue only
      · rw [he] at he'
        cases he'
        rfl
  not_holding {t c} hw hh := by
    rcases mem_holders_perform hh with hh | ⟨c', ha⟩
    · rcases mem_waiting_perform hm hw with hw | ⟨rfl, -⟩
      · exact h.not_holding hw hh
      · exact Nat.lt_irrefl _ (h.holding_lt hh)
    · exact h.not_waiting_of_admitted hm ha hw
  not_granted {t c} hw hg := by
    rcases mem_granted_perform hg with hg | hb
    · rcases mem_waiting_perform hm hw with hw | ⟨rfl, -⟩
      · exact h.not_granted hw hg
      · exact Nat.lt_irrefl _ (h.granted_lt hg)
    · obtain ⟨c', ha⟩ := admitted?_of_boarded? hb
      exact h.not_waiting_of_admitted hm ha hw
  holders_nodup := h.holders_nodup_perform hm
  waiting_lt {t c} hw := by
    rcases mem_waiting_perform hm hw with hw | ⟨rfl, rfl⟩
    · exact Nat.lt_of_lt_of_le (h.waiting_lt hw) (le_nextTicket_perform b m)
    · rw [nextTicket_perform]
      exact Nat.lt_succ_self _
  holding_lt {t} hh := by
    rcases mem_holders_perform hh with hh | ⟨c, ha⟩
    · exact Nat.lt_of_lt_of_le (h.holding_lt hh) (le_nextTicket_perform b m)
    · exact h.lt_nextTicket_of_admitted hm ha
  granted_lt {t} hg := by
    rcases mem_granted_perform hg with hg | hb
    · exact Nat.lt_of_lt_of_le (h.granted_lt hg) (le_nextTicket_perform b m)
    · obtain ⟨c, ha⟩ := admitted?_of_boarded? hb
      exact h.lt_nextTicket_of_admitted hm ha

/-! ### Searches

Where no ticket is in two places, a search finds the only one. -/

theorem queueOf?_eq_some_iff {t : Ticket} {c : Cell} :
    b.queueOf? t = some c ↔ t ∈ b.waiting.get c := by
  refine ⟨mem_waiting_of_queueOf, fun ht => ?_⟩
  cases hq : b.queueOf? t with
  | none => exact absurd ht (queueOf?_eq_none_iff.1 hq c)
  | some c' => rw [h.one_queue (mem_waiting_of_queueOf hq) ht]

theorem cellOf?_eq_some_iff {t : Ticket} {c : Cell} :
    b.cellOf? t = some c ↔ (t, c) ∈ b.holders := by
  refine ⟨mem_holders_of_cellOf, fun hmem => ?_⟩
  cases ho : b.cellOf? t with
  | none => exact absurd hmem (cellOf?_eq_none_iff.1 ho c)
  | some c' =>
    have hsame : (t, c') = (t, c) :=
      List.inj_on_of_nodup_map h.holders_nodup (mem_holders_of_cellOf ho) hmem rfl
    exact congrArg some (Prod.mk.inj hsame).2

end TicketsFit

end Bus

end HalfDuplex

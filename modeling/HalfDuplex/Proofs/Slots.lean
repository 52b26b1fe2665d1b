import HalfDuplex.Proofs.Tickets
import Mathlib.Data.List.Count

/-!
# Slots, holders and the running direction

* `Bus.SlotsFit` : the number of held slots, the held counts, the holders and the running direction
  of a bus tell the same story.
* `Bus.SlotsFit.perform` : every legal move keeps it so.
* `Bus.SlotsFit.held_sum` : the four held counts add up to the number of held slots.
-/

namespace HalfDuplex

namespace Bus

/-- What a bus records of its held slots fits together. -/
structure SlotsFit (b : Bus) : Prop where
  capacity_pos : 0 < b.config.capacity
  active_le : b.active ≤ b.config.capacity
  holders_length : b.holders.length = b.active
  held_eq : ∀ c, b.held.get c = b.holders.countP fun h => h.2 = c
  /-- The bus runs exactly while a slot is held. -/
  current_eq_none : b.current = none ↔ b.active = 0
  /-- All holders move in the running direction. -/
  current_of_holder : ∀ h ∈ b.holders, b.current = some h.2.direction

variable {b : Bus} {m : Move}

theorem length_holdersIn (b : Bus) (c : Cell) :
    (b.holdersIn c).length = b.holders.countP fun h => h.2 = c := by
  rw [holdersIn, List.length_map, List.countP_eq_length_filter]

theorem sum_countP_cell (l : List (Ticket × Cell)) :
    (PerCell.ofFn fun c => l.countP fun h => h.2 = c).sum = l.length := by
  induction l with
  | nil => rfl
  | cons h l ih =>
    simp only [PerCell.sum, PerCell.ofFn, List.countP_cons, List.length_cons] at ih ⊢
    obtain ⟨t, d, p⟩ := h
    cases d <;> cases p <;> simp <;> omega

theorem filter_ticket_eq_erase {l : List (Ticket × Cell)} (hl : (l.map Prod.fst).Nodup)
    {t : Ticket} {c : Cell} (h : (t, c) ∈ l) :
    (l.filter fun x => x.1 ≠ t) = l.erase (t, c) := by
  have hnd : l.Nodup := List.Nodup.of_map _ hl
  rw [hnd.erase_eq_filter]
  refine List.filter_congr fun x hx => ?_
  have hiff : x.1 = t ↔ x = (t, c) :=
    ⟨fun hxt => List.inj_on_of_nodup_map hl hx h hxt, fun hxt => by rw [hxt]⟩
  by_cases hxt : x = (t, c)
  · simp [hxt]
  · simp [hiff, hxt]

namespace SlotsFit

/-- The four held counts add up to the number of held slots. -/
theorem held_sum (h : b.SlotsFit) : b.held.sum = b.active := by
  have hfn : b.held = PerCell.ofFn fun c => b.holders.countP fun x => x.2 = c := by
    have e1 := h.held_eq ⟨.outbound, .elevated⟩
    have e2 := h.held_eq ⟨.outbound, .normal⟩
    have e3 := h.held_eq ⟨.inbound, .elevated⟩
    have e4 := h.held_eq ⟨.inbound, .normal⟩
    simp only [PerCell.get] at e1 e2 e3 e4
    rw [PerCell.ofFn, ← e1, ← e2, ← e3, ← e4]
  rw [hfn, sum_countP_cell, h.holders_length]

/-- A legal admission finds room and goes in the running direction, if there is one. -/
theorem room_of_admitted (h : b.SlotsFit) (hm : b.Legal m) {t : Ticket} {c : Cell}
    (ha : m.admitted? = some (t, c)) :
    b.active < b.config.capacity ∧ (b.active = 0 ∨ b.current = some c.direction) := by
  cases hm with
  | arrive _ hacc =>
    cases ha
    rcases accepts_eq_true.1 hacc with h0 | ⟨hc, hroom, -⟩
    · exact ⟨h0 ▸ h.capacity_pos, Or.inl h0⟩
    · exact ⟨hroom, Or.inr hc⟩
  | board _ hroom ht =>
    cases ha
    cases ht with
    | start h0 => exact ⟨hroom, Or.inl h0⟩
    | follow hc => exact ⟨hroom, Or.inr hc⟩
    | refill hc => exact ⟨hroom, Or.inr hc⟩
  | enqueue | collect | vacate | leave | refuse => cases ha

theorem of_admitted {b' : Bus} (h : b.SlotsFit) {t : Ticket} {c : Cell}
    (hroom : b.active < b.config.capacity) (hdir : b.active = 0 ∨ b.current = some c.direction)
    (hconfig : b'.config = b.config) (hactive : b'.active = b.active + 1)
    (hcurrent : b'.current = some c.direction) (hheld : b'.held = b.held.set c (b.held.get c + 1))
    (hholders : b'.holders = (t, c) :: b.holders) : b'.SlotsFit where
  capacity_pos := hconfig ▸ h.capacity_pos
  active_le := by rw [hconfig, hactive]; exact hroom
  holders_length := by rw [hholders, hactive, List.length_cons, h.holders_length]
  held_eq c' := by
    rw [hheld, hholders, PerCell.get_set, List.countP_cons]
    by_cases hc : c' = c
    · subst hc
      simp [h.held_eq]
    · simp [hc, Ne.symm hc, h.held_eq]
  current_eq_none := by
    rw [hcurrent, hactive]
    simp
  current_of_holder x hx := by
    rw [hholders, List.mem_cons] at hx
    rcases hx with rfl | hx
    · exact hcurrent
    -- an older holder moves in the running direction, which is the new one's
    · have hcx := h.current_of_holder x hx
      rcases hdir with h0 | hd
      · rw [h.current_eq_none.2 h0] at hcx
        cases hcx
      · rw [hcurrent, ← hd, hcx]

theorem perform_vacate (h : b.SlotsFit) (ht : b.TicketsFit) {t : Ticket} {c : Cell}
    (hmem : (t, c) ∈ b.holders) : (b.perform (.vacate t c)).SlotsFit := by
  have hpos : 0 < b.active := h.holders_length ▸ List.length_pos_of_mem hmem
  have hholders : (b.perform (.vacate t c)).holders = b.holders.erase (t, c) := by
    rw [holders_perform]
    exact filter_ticket_eq_erase ht.holders_nodup hmem
  have hle := h.active_le
  constructor
  case capacity_pos => exact (config_perform b _).symm ▸ h.capacity_pos
  case active_le =>
    rw [config_perform, active_perform]
    exact Nat.le_trans (Nat.sub_le _ _) hle
  case holders_length =>
    rw [hholders, List.length_erase_of_mem hmem, h.holders_length, active_perform]
  case held_eq =>
    intro c'
    rw [hholders, held_perform, PerCell.get_set, List.countP_erase]
    by_cases hc : c' = c
    · subst hc
      simp [h.held_eq, hmem]
    · simp [hc, Ne.symm hc, h.held_eq]
  case current_eq_none =>
    rw [current_perform, active_perform]
    have hcur := h.current_eq_none
    split_ifs with h1
    -- the last slot: the bus stops
    · simp [h1]
    · simp only [h1, iff_false]
      rw [hcur]
      omega
  case current_of_holder =>
    intro x hx
    rw [hholders] at hx
    -- a holder is left, so the bus still runs
    have hlen := List.length_pos_of_mem hx
    rw [List.length_erase_of_mem hmem, h.holders_length] at hlen
    rw [current_perform, if_neg (by omega)]
    exact h.current_of_holder x (List.mem_of_mem_erase hx)

/-- Every legal move keeps the books on slots. -/
theorem perform (h : b.SlotsFit) (ht : b.TicketsFit) (hm : b.Legal m) :
    (b.perform m).SlotsFit := by
  have hroom := fun t c => h.room_of_admitted hm (t := t) (c := c)
  cases m with
  | arrive t c =>
    obtain ⟨hr, hd⟩ := hroom t c rfl
    exact h.of_admitted hr hd (config_perform b _) (active_perform b _) (current_perform b _)
      (held_perform b _) (holders_perform b _)
  | board t c why =>
    obtain ⟨hr, hd⟩ := hroom t c rfl
    exact h.of_admitted hr hd (config_perform b _) (active_perform b _) (current_perform b _)
      (held_perform b _) (holders_perform b _)
  | vacate t c =>
    cases hm with
    | vacate _ hmem => exact h.perform_vacate ht hmem
  | enqueue | collect | leave | refuse =>
    exact ⟨h.capacity_pos, h.active_le, h.holders_length, h.held_eq, h.current_eq_none,
      h.current_of_holder⟩

end SlotsFit

end Bus

end HalfDuplex

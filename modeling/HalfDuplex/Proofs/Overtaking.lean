import HalfDuplex.Proofs.Rest

/-!
# Who may overtake whom

Within its direction a bus serves elevated tickets before normal ones and each cell in arrival
order.  This file follows the order of service through whole runs, one admission at a time.

* `Bus.Precedes` : the order in which the tickets of one direction are served.
* `Bus.Moment.InTurn` : what the overtaking law says of one moment of a run.
* `Bus.Legal.inTurn` : every legal move of a sound bus follows it.
* `Bus.sorted_admissions` : the admissions of a cell are in arrival order, over any number of moves.
* `Bus.inTurn_history` : the overtaking law for runs.

An elevated request that arrives is only tested against the elevated queue of its direction.  That
it never passes a normal waiter is because the bus is settled whenever an operation begins.
-/

namespace HalfDuplex

namespace Bus

/-- Waiter `t` of cell `c` is to be served before ticket `u` of cell `c'`. -/
def Precedes (t : Ticket) (c : Cell) (u : Ticket) (c' : Cell) : Prop :=
  c.direction = c'.direction ∧
    (c = c' ∧ t < u ∨ c.priority = .elevated ∧ c'.priority = .normal)

/-- If a ticket takes a slot at this moment, it is its turn. -/
structure Moment.InTurn (m : Moment) : Prop where
  /-- Nobody waits who is to be served before. -/
  first : ∀ u c, m.move.admitted? = some (u, c) →
    ∀ c', ∀ t ∈ m.bus.waiting.get c', ¬ Precedes t c' u c
  /-- A ticket takes a slot on arrival only when nobody of its direction waits. -/
  alone : ∀ u c, m.move = .arrive u c → ∀ p, m.bus.waiting.get ⟨c.direction, p⟩ = []
  /-- A waiter is overtaken only by the other direction and, if it is normal, by elevated tickets
  of its own direction that waited too. -/
  overtaken : ∀ u c, m.move.admitted? = some (u, c) → ∀ c', ∀ t ∈ m.bus.waiting.get c', t < u →
    c.direction = c'.direction.opposite ∨
      c.direction = c'.direction ∧ c.priority = .elevated ∧ c'.priority = .normal ∧
        ∃ why, m.move = .board u c why

/-- The tickets that take a slot during a run, with their cells, in the order of admission. -/
def admissions (b : Bus) (ops : List Op) : List (Ticket × Cell) :=
  (b.trace ops).filterMap Move.admitted?

variable {b : Bus} {m : Move} {ms : List Move} {t u : Ticket} {c c' : Cell}

/-! ### A single admission -/

/-- Within a direction, only an elevated ticket may pass an older one, and only a normal one. -/
theorem priorities_of_not_precedes (hd : c.direction = c'.direction) (htu : t < u)
    (hnot : ¬ Precedes t c' u c) : c.priority = .elevated ∧ c'.priority = .normal := by
  obtain ⟨d, p⟩ := c
  obtain ⟨d', p'⟩ := c'
  obtain rfl : d = d' := hd
  cases p with
  | elevated =>
    cases p' with
    | elevated => exact absurd ⟨rfl, Or.inl ⟨rfl, htu⟩⟩ hnot
    | normal => exact ⟨rfl, rfl⟩
  | normal =>
    cases p' with
    | elevated => exact absurd ⟨rfl, Or.inr ⟨rfl, rfl⟩⟩ hnot
    | normal => exact absurd ⟨rfl, Or.inl ⟨rfl, htu⟩⟩ hnot

theorem Legal.waiting_of_arrive (hm : b.Legal (.arrive u c)) (hd : c'.direction = c.direction) :
    b.waiting.get c' = [] := by
  cases hm with
  | arrive hs hacc =>
    have hnil := hs.waiting_of_accepts hacc c'.priority
    rw [← hd] at hnil
    exact hnil

theorem Front.not_precedes (hf : b.Front u c) (hsorted : (b.waiting.get c).Pairwise (· < ·))
    (ht : t ∈ b.waiting.get c') : ¬ Precedes t c' u c := by
  rintro ⟨hd, ⟨rfl, htu⟩ | ⟨he, hn⟩⟩
  · rw [hf.head] at ht
    rcases List.mem_cons.1 ht with rfl | ht
    · exact Nat.lt_irrefl _ htu
    · exact Nat.lt_asymm htu (hf.lt_of_mem_tail hsorted ht)
  · have hnil := hf.elevated_first hn
    rw [← hd, ← he] at hnil
    rw [hnil] at ht
    cases ht

theorem Legal.not_precedes (hm : b.Legal m) (hfit : b.TicketsFit)
    (ha : m.admitted? = some (u, c)) (ht : t ∈ b.waiting.get c') : ¬ Precedes t c' u c := by
  cases m with
  | arrive =>
    cases ha
    rintro ⟨hd, -⟩
    rw [hm.waiting_of_arrive hd] at ht
    cases ht
  | board =>
    cases ha
    cases hm with
    | board hf => exact hf.not_precedes (hfit.sorted c) ht
  | enqueue | collect | vacate | leave | refuse => cases ha

theorem Legal.overtakes (hm : b.Legal m) (hfit : b.TicketsFit)
    (ha : m.admitted? = some (u, c)) (ht : t ∈ b.waiting.get c') (htu : t < u) :
    c.direction = c'.direction.opposite ∨
      c.direction = c'.direction ∧ c.priority = .elevated ∧ c'.priority = .normal ∧
        ∃ why, m = .board u c why := by
  by_cases hd : c.direction = c'.direction
  · have hnot := hm.not_precedes hfit ha ht
    obtain ⟨he, hn⟩ := priorities_of_not_precedes hd htu hnot
    refine Or.inr ⟨hd, he, hn, ?_⟩
    cases m with
    | arrive =>
      cases ha
      rw [hm.waiting_of_arrive hd.symm] at ht
      cases ht
    | board _ _ why =>
      cases ha
      exact ⟨why, rfl⟩
    | enqueue | collect | vacate | leave | refuse => cases ha
  · exact Or.inl (Direction.eq_opposite_of_ne hd)

/-- Every legal move of a sound bus is in turn. -/
theorem Legal.inTurn (hm : b.Legal m) (h : b.Sound) : Moment.InTurn ⟨b, m⟩ where
  first _ _ ha _ _ ht := hm.not_precedes h.tickets ha ht
  alone u c he p := by
    cases he
    exact hm.waiting_of_arrive rfl
  overtaken _ _ ha _ _ ht htu := hm.overtakes h.tickets ha ht htu

/-! ### The admissions of a cell -/

theorem Legal.lt_of_mem_waiting (hm : b.Legal m) (hfit : b.TicketsFit)
    (ha : m.admitted? = some (t, c)) (hu : u ∈ (b.perform m).waiting.get c) : t < u := by
  rw [waiting_perform] at hu
  cases m with
  | arrive =>
    cases ha
    rw [hm.waiting_of_arrive rfl] at hu
    cases hu
  | board =>
    cases ha
    rw [PerCell.get_set, if_pos rfl] at hu
    cases hm with
    | board hf => exact hf.lt_of_mem_tail (hfit.sorted c) hu
  | enqueue | collect | vacate | leave | refuse => cases ha

theorem waiting_or_new_of_admitted (h : b.Sound) (hms : ∀ m ∈ b.moments ms, m.Legal)
    (hu : (u, c) ∈ ms.filterMap Move.admitted?) : u ∈ b.waiting.get c ∨ b.nextTicket ≤ u := by
  induction ms generalizing b with
  | nil => cases hu
  | cons m ms ih =>
    rw [moments_cons, List.forall_mem_cons] at hms
    obtain ⟨hm, hms⟩ := hms
    obtain ⟨m', hmem, ha⟩ := List.mem_filterMap.1 hu
    rcases List.mem_cons.1 hmem with rfl | hmem
    · rcases h.tickets.new_or_front hm ha with rfl | ⟨hw, -⟩
      · exact Or.inr (Nat.le_refl _)
      · exact Or.inl hw
    · rcases ih (h.perform hm) hms (List.mem_filterMap.2 ⟨m', hmem, ha⟩) with hw | hle
      · rcases mem_waiting_perform hm hw with hw | ⟨rfl, -⟩
        · exact Or.inl hw
        · exact Or.inr (Nat.le_refl _)
      · exact Or.inr (Nat.le_trans (le_nextTicket_perform b m) hle)

/-- Legal moves admit the tickets of each cell in arrival order. -/
theorem sorted_admissions (h : b.Sound) (hms : ∀ m ∈ b.moments ms, m.Legal) :
    (ms.filterMap Move.admitted?).Pairwise fun x y => x.2 = y.2 → x.1 < y.1 := by
  induction ms generalizing b with
  | nil => exact List.Pairwise.nil
  | cons m ms ih =>
    rw [moments_cons, List.forall_mem_cons] at hms
    obtain ⟨hm, hms⟩ := hms
    have hrest := ih (h.perform hm) hms
    cases ha : m.admitted? with
    | none => rwa [List.filterMap_cons_none ha]
    | some x =>
      rw [List.filterMap_cons_some ha]
      refine List.pairwise_cons.2 ⟨?_, hrest⟩
      rintro ⟨u, c⟩ hu hc
      obtain ⟨t, c'⟩ := x
      obtain rfl : c' = c := hc
      -- later admissions come from the queue that is left now, or from tickets issued since
      rcases waiting_or_new_of_admitted (h.perform hm) hms hu with hw | hle
      · exact hm.lt_of_mem_waiting h.tickets ha hw
      · exact Nat.lt_of_lt_of_le (h.tickets.lt_nextTicket_of_admitted hm ha) hle

/-! ### Runs -/

/-- **The overtaking law.**  The admissions of a run are those that its answers report.  At every
one of them it is the admitted ticket's turn, and each cell is served in arrival order over the
whole run. -/
theorem inTurn_history {config : Config} (hc : config.valid = true) (ops : List Op) :
    ((Bus.new config).run ops).1.flatMap Answer.admitted =
        ((Bus.new config).admissions ops).map Prod.fst ∧
      (∀ m ∈ (Bus.new config).history ops, m.InTurn) ∧
      ((Bus.new config).admissions ops).Pairwise fun x y => x.2 = y.2 → x.1 < y.1 := by
  have hreach := reachable_new hc
  have hhist := hreach.history ops
  refine ⟨?_, ?_, ?_⟩
  · rw [admitted_run, admissions, List.map_filterMap]
  · intro m hm
    exact (hhist m hm).1.inTurn (hhist m hm).2
  · exact sorted_admissions hreach.sound fun m hm => (hhist m hm).1

/-- A bus with one slot on which an elevated ticket overtakes a normal one of its own direction and
one of the other direction, and is itself overtaken by the other direction. -/
theorem inTurn_history_one_slot :
    (⟨1, .alternate, 1, false⟩ : Config).valid = true ∧
      ((Bus.new ⟨1, .alternate, 1, false⟩).run
        [.request ⟨.outbound, .normal⟩, .request ⟨.outbound, .normal⟩,
          .request ⟨.inbound, .normal⟩, .request ⟨.outbound, .elevated⟩,
          .request ⟨.outbound, .elevated⟩, .releaseTicket 0, .releaseTicket 3, .releaseTicket 2,
          .release ⟨.outbound, .elevated⟩]).1.flatMap Answer.admitted = [0, 3, 2, 4, 1] ∧
      ((Bus.new ⟨1, .alternate, 1, false⟩).admissions
        [.request ⟨.outbound, .normal⟩, .request ⟨.outbound, .normal⟩,
          .request ⟨.inbound, .normal⟩, .request ⟨.outbound, .elevated⟩,
          .request ⟨.outbound, .elevated⟩, .releaseTicket 0, .releaseTicket 3, .releaseTicket 2,
          .release ⟨.outbound, .elevated⟩]).Pairwise fun x y => x.2 = y.2 → x.1 < y.1 :=
  ⟨by decide, by decide, (inTurn_history (by decide) _).2.2⟩

end Bus

end HalfDuplex

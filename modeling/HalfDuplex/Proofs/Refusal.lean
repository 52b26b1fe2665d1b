import HalfDuplex.Proofs.InHand

/-!
# Releases that are refused

A release by cell looks for the oldest holder of the cell, and one by ticket for the slot of the
ticket.  Where there is none, the release is refused and only counted.  The books also keep a number
of held slots for each cell.  No release is decided by it; that it tells the same story is an
invariant of every run.

* `Bus.release_error_iff`, `Bus.releaseTicket_error_iff` : the releases that are refused, with their
  faults.
* `Bus.release_of_held` : a release by cell is a release of the oldest ticket that holds the cell.
* `Bus.mem_holders_releaseTicket` : who holds a slot after a release.
* `Bus.released_or_refused` : all this on the buses of a run.
-/

namespace HalfDuplex

namespace Bus

variable {b : Bus} {t : Ticket} {c : Cell} {x : Ticket × Cell} {woken : List Ticket} {fault : Fault}

/-! ### Refused releases -/

theorem held_eq_zero_iff (h : b.SlotsFit) : b.held.get c = 0 ↔ ∀ t, (t, c) ∉ b.holders := by
  rw [h.held_eq, ← length_holdersIn, List.length_eq_zero_iff, List.eq_nil_iff_forall_not_mem]
  exact forall_congr' fun t => not_congr mem_holdersIn

theorem release_of_none (hnone : ∀ t, (t, c) ∉ b.holders) :
    b.release c = (.error (.unmatchedRelease c), b.countRejected) := by
  simp only [release, oldestHolder?_eq_none_iff.2 hnone]

theorem releaseTicket_of_none (hnone : ∀ c, (t, c) ∉ b.holders) :
    b.releaseTicket t = (.error (.staleTicket t), b.countRejected) := by
  simp only [releaseTicket, cellOf?_eq_none_iff.2 hnone]

/-- **A release by cell is refused exactly where no slot of the cell is held.** -/
theorem release_error_iff (h : b.SlotsFit) :
    (b.release c).1 = .error fault ↔ b.held.get c = 0 ∧ fault = .unmatchedRelease c := by
  rw [held_eq_zero_iff h, ← oldestHolder?_eq_none_iff]
  cases ho : b.oldestHolder? c with
  | none => simp [release, ho, eq_comm]
  | some t => simp [release, ho]

/-- **A release by ticket is refused exactly where the ticket holds no slot.** -/
theorem releaseTicket_error_iff :
    (b.releaseTicket t).1 = .error fault ↔
      (∀ c, (t, c) ∉ b.holders) ∧ fault = .staleTicket t := by
  rw [← cellOf?_eq_none_iff]
  cases ho : b.cellOf? t with
  | none => simp [releaseTicket, ho, eq_comm]
  | some c => simp [releaseTicket, ho]

/-! ### Releases that give back a slot -/

theorem release_of_held (h : b.TicketsFit) (hok : (b.release c).1 = .ok woken) :
    ∃ t, (t, c) ∈ b.holders ∧ (∀ u, (u, c) ∈ b.holders → t ≤ u) ∧
      b.release c = b.releaseTicket t := by
  cases ho : b.oldestHolder? c with
  | none =>
    simp only [release, ho] at hok
    cases hok
  | some t =>
    obtain ⟨hheld, holdest⟩ := oldestHolder?_eq_some_iff.1 ho
    refine ⟨t, hheld, holdest, ?_⟩
    simp only [release, releaseTicket, ho, h.cellOf?_eq_some_iff.2 hheld]

theorem waiting_of_woken (h : b.Reachable) {op : Op} (hw : x.1 ∈ (b.step op).1.woken)
    (hx : x ∈ (b.step op).2.holders) : x.1 ∈ b.waiting.get x.2 := by
  obtain ⟨c, hc⟩ := waited_of_departed h (Or.inl hw)
  have hsame : x = (x.1, c) := List.inj_on_of_nodup_map (h.step op).sound.tickets.holders_nodup hx
    (holding_of_woken h hw hc) rfl
  rw [hsame]
  exact hc

/-- **Who holds a slot after a release** held one before and did not give it back, or was let in. -/
theorem mem_holders_releaseTicket (h : b.Reachable) (hok : (b.releaseTicket t).1 = .ok woken) :
    x ∈ (b.releaseTicket t).2.holders ↔
      x ∈ b.holders ∧ x.1 ≠ t ∨ x.1 ∈ woken ∧ x.1 ∈ b.waiting.get x.2 := by
  have hbus : (b.releaseTicket t).2 = (b.step (.releaseTicket t)).2 := rfl
  have hwoken : (b.step (.releaseTicket t)).1.woken = woken := by
    simp only [step, hok, Answer.ofRelease, Answer.woken]
  obtain ⟨c, hheld⟩ : ∃ c, (t, c) ∈ b.holders := by
    by_contra hnone
    rw [releaseTicket_of_none (not_exists.1 hnone)] at hok
    cases hok
  rw [hbus]
  constructor
  · intro hx
    have hne : x.1 ≠ t := by
      rintro rfl
      exact not_holding_of_released h hheld (List.mem_map_of_mem hx)
    rcases held_or_new h hx with hold | harrived | hnew
    · exact Or.inl ⟨hold, hne⟩
    · cases harrived
    · exact Or.inr ⟨hwoken ▸ hnew, waiting_of_woken h hnew hx⟩
  · rintro (⟨hold, hne⟩ | ⟨hnew, hwaits⟩)
    · refine holding_step h (.releaseTicket t) hold (fun heq => ?_) (fun c hcell => ?_)
      · exact hne (Op.releaseTicket.inj heq).symm
      · cases hcell
    · rw [← hwoken] at hnew
      exact holding_of_woken h hnew hwaits

/-- **Releases, refused or not.**  On every bus of a run, a release by cell is refused exactly where
the books count no held slot of the cell, and a release by ticket exactly where the ticket holds
none.  A refused release changes nothing but its count.  A release by cell that is not refused is,
answer and bus, the release of the oldest ticket that holds the cell: that ticket alone gives up its
slot, and who else holds one afterwards was let in from its queue. -/
theorem released_or_refused (h : b.Reachable) :
    let counted : Bus :=
      { b with stats := { b.stats with rejectedReleases := b.stats.rejectedReleases + 1 } }
    (∀ c, (∃ fault, (b.release c).1 = .error fault) ↔ b.held.get c = 0) ∧
      (∀ c fault, (b.release c).1 = .error fault →
        b.release c = (.error (.unmatchedRelease c), counted)) ∧
      (∀ t, (∃ fault, (b.releaseTicket t).1 = .error fault) ↔ ∀ c, (t, c) ∉ b.holders) ∧
      (∀ t fault, (b.releaseTicket t).1 = .error fault →
        b.releaseTicket t = (.error (.staleTicket t), counted)) ∧
      ∀ c woken, (b.release c).1 = .ok woken → ∃ t, (t, c) ∈ b.holders ∧
        (∀ u, (u, c) ∈ b.holders → t ≤ u) ∧ b.release c = b.releaseTicket t ∧
        ∀ x, x ∈ (b.release c).2.holders ↔
          x ∈ b.holders ∧ x.1 ≠ t ∨ x.1 ∈ woken ∧ x.1 ∈ b.waiting.get x.2 := by
  have hslots := h.sound.slots
  intro counted
  refine ⟨fun c => ?_, fun c fault herr => ?_, fun t => ?_, fun t fault herr => ?_,
    fun c woken hok => ?_⟩
  · simp only [release_error_iff hslots, exists_and_left, exists_eq, and_true]
  · exact release_of_none ((held_eq_zero_iff hslots).1 ((release_error_iff hslots).1 herr).1)
  · simp only [releaseTicket_error_iff, exists_and_left, exists_eq, and_true]
  · exact releaseTicket_of_none (releaseTicket_error_iff.1 herr).1
  · obtain ⟨t, hheld, holdest, heq⟩ := release_of_held h.sound.tickets hok
    refine ⟨t, hheld, holdest, heq, fun x => ?_⟩
    rw [heq] at hok ⊢
    exact mem_holders_releaseTicket h hok

/-- Two of three slots are held on the way out, and a ticket waits for the way in.  Its cell has no
slot to give back, nor has the ticket; a release of the others' cell is one of the older ticket. -/
theorem released_or_refused_three_slots : ∃ b b' : Bus, b.Reachable ∧
    b.holders = [(1, ⟨.outbound, .normal⟩), (0, ⟨.outbound, .normal⟩)] ∧
    b.waiting.get ⟨.inbound, .normal⟩ = [2] ∧
    b.release ⟨.inbound, .normal⟩ = (.error (.unmatchedRelease ⟨.inbound, .normal⟩),
      { b with stats := { b.stats with rejectedReleases := b.stats.rejectedReleases + 1 } }) ∧
    b.releaseTicket 2 = (.error (.staleTicket 2),
      { b with stats := { b.stats with rejectedReleases := b.stats.rejectedReleases + 1 } }) ∧
    b.release ⟨.outbound, .normal⟩ = (.ok [], b') ∧ b.releaseTicket 0 = (.ok [], b') ∧
    b'.holders = [(1, ⟨.outbound, .normal⟩)] := by
  have hreach : Reachable ((Bus.new ⟨3, .alternate, 1, true⟩).run [.request ⟨.outbound, .normal⟩,
    .request ⟨.outbound, .normal⟩, .request ⟨.inbound, .normal⟩]).2 := ⟨by decide, _, rfl⟩
  obtain ⟨-, hcell, -, hticket, holdest⟩ := released_or_refused hreach
  obtain ⟨t, hheld, hle, heq, -⟩ := holdest ⟨.outbound, .normal⟩ [] rfl
  have ht : t = 0 := Nat.le_zero.1 (hle 0 (by decide))
  subst ht
  exact ⟨_, _, hreach, rfl, rfl, hcell ⟨.inbound, .normal⟩ _ rfl, hticket 2 _ rfl, rfl,
    heq.symm, rfl⟩

end Bus

end HalfDuplex

import HalfDuplex.Proofs.Cycle
import HalfDuplex.Proofs.Life

/-!
# What a grant is worth

A ticket that goes from its queue to a slot has a grant until its caller picks it up.  A release by
cell, or by that very ticket, can take the slot away before; the grant stays behind.  From then on
the bus tells the caller that it was admitted although it holds no slot.

* `Bus.GrantsHeld` : every grant, and every answer that speaks of one, stands for a slot.
* `Bus.Moment.stripsGrant` : at this moment a slot is given back whose grant was not picked up.
* `Bus.grantsHeld_stages_iff` : grants stand for slots all through a run exactly if no release of
  the run strips one.
* `Bus.grant_without_slot` : a run with a grant that stands for nothing.
-/

namespace HalfDuplex

namespace Bus

/-- Every grant stands for a slot. -/
structure GrantsHeld (b : Bus) : Prop where
  held : ∀ t ∈ b.granted, t ∈ b.holders.map Prod.fst
  /-- Who is told that it was admitted before it could withdraw holds a slot. -/
  alreadyAdmitted : ∀ t, (b.withdraw t).1 = .alreadyAdmitted → t ∈ b.holders.map Prod.fst
  /-- Who picks up a grant holds a slot. -/
  taken : ∀ t, (b.takeGrant t).1 = true → t ∈ b.holders.map Prod.fst

/-- A slot is given back whose ticket still has its grant. -/
def Moment.stripsGrant (m : Moment) : Bool :=
  match m.move with
  | .vacate t _ => t ∈ m.bus.granted
  | _ => false

variable {b : Bus} {m : Move} {ms : List Move} {t : Ticket} {c : Cell}

theorem grantsHeld_iff : b.GrantsHeld ↔ ∀ t ∈ b.granted, t ∈ b.holders.map Prod.fst := by
  refine ⟨GrantsHeld.held, fun h => ⟨h, fun t ht => h t ?_, fun t ht => h t ?_⟩⟩
  · unfold withdraw at ht
    split at ht
    · cases ht
    · split_ifs at ht with hg
      exact hg
  · exact of_decide_eq_true ht

/-! ### Moves that strip no grant -/

/-- A move that strips no grant leaves every grant its slot. -/
theorem GrantsHeld.perform (h : b.GrantsHeld) (hstrip : Moment.stripsGrant ⟨b, m⟩ = false) :
    (b.perform m).GrantsHeld := by
  refine grantsHeld_iff.2 fun t ht => ?_
  rw [granted_perform] at ht
  rw [holders_perform]
  cases m with
  | arrive u c => exact List.mem_cons_of_mem _ (h.held t ht)
  | board u c why =>
    rcases List.mem_cons.1 ht with rfl | ht
    · exact List.mem_cons_self
    · exact List.mem_cons_of_mem _ (h.held t ht)
  | collect u => exact h.held t (List.mem_filter.1 ht).1
  | vacate u c =>
    have hu : u ∉ b.granted := by simpa [Moment.stripsGrant] using hstrip
    obtain ⟨x, hx, rfl⟩ := List.mem_map.1 (h.held t ht)
    refine List.mem_map_of_mem (List.mem_filter.2 ⟨hx, ?_⟩)
    rw [decide_eq_true_eq]
    rintro rfl
    exact hu ht
  | enqueue | leave | refuse => exact h.held t ht

theorem GrantsHeld.performAll (h : b.GrantsHeld)
    (hstrip : ∀ m ∈ b.moments ms, m.stripsGrant = false) : (b.performAll ms).GrantsHeld := by
  induction ms generalizing b with
  | nil => exact h
  | cons m ms ih =>
    rw [moments_cons, List.forall_mem_cons] at hstrip
    exact ih (h.perform hstrip.1) hstrip.2

/-! ### A stripped grant -/

theorem TicketsFit.at_holding (h : b.TicketsFit) (hmem : (t, c) ∈ b.holders) :
    b.At t (.holding c) where
  issued := iff_of_true (h.holding_lt (List.mem_map_of_mem hmem)) nofun
  waiting c' := iff_of_false (fun hw => h.not_holding hw (List.mem_map_of_mem hmem)) nofun
  holding c' := by
    refine ⟨fun hmem' => ?_, fun hc => ?_⟩
    · rw [(Prod.mk.inj (List.inj_on_of_nodup_map h.holders_nodup hmem hmem' rfl)).2]
    · cases hc
      exact hmem
  granted _ := ⟨c, Or.inl rfl⟩

theorem mem_granted_boarding (hms : ∀ m ∈ ms, ∃ t c why, m = Move.board t c why)
    (ht : t ∈ b.granted) : t ∈ (b.performAll ms).granted := by
  induction ms generalizing b with
  | nil => exact ht
  | cons m ms ih =>
    rw [List.forall_mem_cons] at hms
    obtain ⟨⟨u, c, why, rfl⟩, hms⟩ := hms
    refine ih hms ?_
    rw [granted_perform]
    exact List.mem_cons_of_mem _ ht

theorem move_mem_of_mem_moments {m : Moment} (hm : m ∈ b.moments ms) : m.move ∈ ms := by
  induction ms generalizing b with
  | nil => cases hm
  | cons x ms ih =>
    rw [moments_cons] at hm
    rcases List.mem_cons.1 hm with rfl | hm
    · exact List.mem_cons_self
    · exact List.mem_cons_of_mem _ (ih hm)

theorem stripsGrant_dispatchMoves {m : Moment} (hm : m ∈ b.moments b.dispatchMoves) :
    m.stripsGrant = false := by
  obtain ⟨s, x⟩ := m
  obtain ⟨t, c, why, rfl⟩ := board_of_mem_dispatchMoves (move_mem_of_mem_moments hm)
  rfl

/-- Giving back a slot whose grant was not picked up leaves that grant without a slot. -/
theorem not_grantsHeld_vacate (h : b.Sound) (hs : b.Settled) (hmem : (t, c) ∈ b.holders)
    (hgrant : t ∈ b.granted) :
    ¬ (b.performAll (.vacate t c :: (b.perform (.vacate t c)).dispatchMoves)).GrantsHeld := by
  intro hheld
  -- the ticket keeps its grant, but it has come to the place of released tickets for good
  have hkept : t ∈ (b.performAll
      (.vacate t c :: (b.perform (.vacate t c)).dispatchMoves)).granted := by
    rw [performAll_cons]
    refine mem_granted_boarding (fun _ => board_of_mem_dispatchMoves) ?_
    rw [granted_perform]
    exact hgrant
  have hlegal := (legal_cons_dispatch h (.vacate hs hmem)).1
  obtain ⟨hchain, hat, -⟩ := (h.tickets.at_holding hmem).performAll h hlegal
  have hplace : (Move.vacate t c).place? t = some (.released c) := if_pos rfl
  have hlast := Place.getLastD_of_final (q := .released c) hchain nofun
    (List.mem_filterMap.2 ⟨_, List.mem_cons_self, hplace⟩)
  rw [hlast] at hat
  obtain ⟨⟨u, c'⟩, hholds, rfl⟩ := List.mem_map.1 (hheld.held t hkept)
  cases (hat.holding c').1 hholds

/-- An operation that strips a grant leaves that grant without a slot. -/
theorem not_grantsHeld_of_strips (h : b.Sound) (hs : b.Settled) {op : Op} {m : Moment}
    (hm : m ∈ b.moments (b.moves op)) (hstrip : m.stripsGrant = true) :
    ¬ (b.step op).2.GrantsHeld := by
  have hrow := b.row_moves op
  rw [step_eq_performAll]
  generalize b.moves op = ms at hm hrow ⊢
  cases hrow with
  | nothing => cases hm
  | arrive | enqueue | collect | refuse =>
    obtain rfl := List.mem_singleton.1 hm
    cases hstrip
  | leave =>
    rcases List.mem_cons.1 hm with rfl | hm
    · cases hstrip
    · rw [stripsGrant_dispatchMoves hm] at hstrip
      cases hstrip
  | vacate hmem =>
    rcases List.mem_cons.1 hm with rfl | hm
    · exact not_grantsHeld_vacate h hs hmem (of_decide_eq_true hstrip)
    · rw [stripsGrant_dispatchMoves hm] at hstrip
      cases hstrip

/-! ### Runs -/

theorem grantsHeld_stages (h : b.Sound) (hs : b.Settled) (hheld : b.GrantsHeld) (ops : List Op) :
    (∀ s ∈ b.stages ops, s.GrantsHeld) ↔ ∀ m ∈ b.history ops, m.stripsGrant = false := by
  induction ops generalizing b with
  | nil =>
    refine iff_of_true (fun s hs => ?_) fun m hm => absurd hm List.not_mem_nil
    rw [List.mem_singleton.1 hs]
    exact hheld
  | cons op ops ih =>
    have hih := fun hheld' => ih (h.step hs op) (hs.step h op) hheld'
    have hsplit : b.history (op :: ops) =
        b.moments (b.moves op) ++ (b.step op).2.history ops := by
      rw [history, trace, moments_append, ← step_eq_performAll]
      rfl
    rw [hsplit, List.forall_mem_append, stages, List.forall_mem_cons]
    constructor
    · rintro ⟨-, hstages⟩
      have hnext : (b.step op).2.GrantsHeld := hstages _ (by cases ops <;> exact List.mem_cons_self)
      refine ⟨fun m hm => ?_, (hih hnext).1 hstages⟩
      by_contra hstrip
      exact not_grantsHeld_of_strips h hs hm (by simpa using hstrip) hnext
    · rintro ⟨hfirst, hrest⟩
      have hnext : (b.step op).2.GrantsHeld := by
        rw [step_eq_performAll]
        exact hheld.performAll hfirst
      exact ⟨hheld, (hih hnext).2 hrest⟩

/-- **What a grant is worth.**  All through a run every grant, and every answer that speaks of one,
stands for a slot exactly if the run gives back no slot whose grant was not picked up. -/
theorem grantsHeld_stages_iff {config : Config} (hc : config.valid = true) (ops : List Op) :
    (∀ s ∈ (Bus.new config).stages ops, s.GrantsHeld) ↔
      ∀ m ∈ (Bus.new config).history ops, m.stripsGrant = false :=
  grantsHeld_stages (sound_new hc) (settled_new config) (grantsHeld_iff.2 nofun) ops

/-- A caller that picks up its grant before its slot is given back. -/
theorem grantsHeld_stages_one_slot : (⟨1, .alternate, 1, false⟩ : Config).valid = true ∧
    ∀ s ∈ (Bus.new ⟨1, .alternate, 1, false⟩).stages
      [.request ⟨.outbound, .normal⟩, .request ⟨.inbound, .normal⟩,
        .release ⟨.outbound, .normal⟩, .takeGrant 1, .release ⟨.inbound, .normal⟩], s.GrantsHeld :=
  ⟨by decide, (grantsHeld_stages_iff (by decide) _).2 (by decide)⟩

/-- A slot is given back before its grant is picked up.  The grant stays: a withdrawal is told that
the ticket was admitted, and the grant can be picked up, though no slot is held. -/
theorem grant_without_slot : ∃ b : Bus, b.Reachable ∧ b.config = ⟨1, .alternate, 1, false⟩ ∧
    b.holders = [] ∧ b.granted = [1] ∧ (b.withdraw 1).1 = .alreadyAdmitted ∧
    (b.takeGrant 1).1 = true := by
  refine ⟨((Bus.new ⟨1, .alternate, 1, false⟩).run [.request ⟨.outbound, .normal⟩,
    .request ⟨.outbound, .normal⟩, .releaseTicket 0, .releaseTicket 1]).2,
    ⟨by decide, _, rfl⟩, rfl, ?_⟩
  decide

end Bus

end HalfDuplex

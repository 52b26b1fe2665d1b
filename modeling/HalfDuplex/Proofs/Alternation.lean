import HalfDuplex.Proofs.Streak

/-!
# The alternating rule knows whom to alternate with

Between rivals neither of whom is preferred, the alternating rule turns away from the direction
that was served last.  A bus that has served nobody yet would fall back on its oldest waiter.  This
never happens.  Somebody waits only once a cycle has begun, and the bus remembers its direction,
also in the middle of a release, when the last slot has been given back and nobody was let in yet.

* `Bus.Recalls` : a running bus remembers its own direction as the last one, and a bus with waiters
  remembers some direction.
* `Bus.Recalls.perform` : every legal move keeps it so.
* `Bus.Recalls.ne_oldestFirst` : an alternating bus chooses no direction for its oldest waiter.
* `Bus.Tied` : callers of both directions wait, and neither side is preferred.
* `Bus.alternation_run` : what is remembered after any run, and where the choices of a run go.
-/

namespace HalfDuplex

namespace Bus

/-- A bus remembers the direction in which it runs, and while somebody waits, the last one. -/
structure Recalls (b : Bus) : Prop where
  running : ∀ d, b.current = some d → b.lastServed = some d
  waiting : ∀ c, b.waiting.get c ≠ [] → ∃ d, b.lastServed = some d

/-- Callers of both directions wait, and neither side is preferred for its elevated ones. -/
structure Tied (b : Bus) : Prop where
  rivals : ∀ d, b.hasWaiters d = true
  even : b.preferred? = none

variable {b : Bus} {d : Direction} {r : Reason} {t : Ticket} {c : Cell} {m : Move}

/-! ### The last direction is remembered -/

namespace Recalls

theorem lastServed_of_admitted (h : b.Recalls) (hslots : b.SlotsFit) (hm : b.Legal m)
    (ha : m.admitted? = some (t, c)) : (b.perform m).lastServed = some c.direction := by
  have hlast : (b.perform m).lastServed =
      ((Moment.cycle? ⟨b, m⟩).toList.foldl Service.after b.service).last :=
    congrArg Service.last (service_perform b m)
  by_cases h0 : b.active = 0
  · obtain ⟨why, hk⟩ := cycle?_of_admitted ha h0
    rw [hlast, hk]
    rfl
  -- a running bus takes only its own direction
  · have hcurrent := (hslots.room_of_admitted hm ha).2.resolve_left h0
    rw [hlast, cycle?_of_running h0]
    exact h.running _ hcurrent

theorem of_admitted {b' : Bus} (hcurrent : b'.current = some c.direction)
    (hlast : b'.lastServed = some c.direction) : b'.Recalls where
  running d hd := by rw [hlast, ← hcurrent, hd]
  waiting _ _ := ⟨_, hlast⟩

/-- Every legal move keeps the last direction in memory. -/
theorem perform (h : b.Recalls) (hslots : b.SlotsFit) (hm : b.Legal m) :
    (b.perform m).Recalls := by
  have hadmitted := fun t c => h.lastServed_of_admitted hslots hm (t := t) (c := c)
  cases hm with
  | arrive => exact of_admitted (current_perform b _) (hadmitted _ _ rfl)
  | board => exact of_admitted (current_perform b _) (hadmitted _ _ rfl)
  | @enqueue c _ hacc =>
    refine ⟨h.running, fun _ _ => ?_⟩
    -- the bus that refused the new waiter runs, and so it remembers its direction
    cases hc : b.current with
    | none => exact absurd (hslots.current_eq_none.1 hc) (active_ne_zero_of_refused hacc)
    | some d => exact ⟨d, h.running d hc⟩
  | @vacate t c =>
    refine ⟨fun d hd => ?_, h.waiting⟩
    rw [current_perform] at hd
    split_ifs at hd
    exact h.running d hd
  | @leave t c =>
    refine ⟨h.running, fun c' hc' => h.waiting c' fun hnil => hc' ?_⟩
    rw [waiting_perform, PerCell.get_set]
    split_ifs with hcc
    · rw [← hcc, hnil, List.erase_nil]
    · exact hnil
  | collect | refuse => exact ⟨h.running, h.waiting⟩

/-! ### Where the choices go -/

theorem exists_last (h : b.Recalls) (hw : b.hasWaiters d = true) :
    ∃ e, b.lastServed = some e := by
  obtain ⟨p, hp⟩ := hasWaiters_eq_true.1 hw
  exact h.waiting ⟨d, p⟩ hp

theorem ne_oldestFirst (h : b.Recalls) (hfair : b.config.fairness = .alternate)
    (hn : b.nextTurn = some (d, r)) : r ≠ .oldestFirst := by
  rintro rfl
  obtain ⟨e, hlast⟩ := h.exists_last (hasWaiters_of_nextTurn hn)
  have hc : b.contested.2 = .oldestFirst := congrArg Prod.snd (contested_of_reason hn nofun)
  cases hp : b.preferred? with
  | some e => exact contested_ne_oldestFirst hp hc
  | none =>
    rw [contested_alternate hp hfair hlast] at hc
    cases hc

end Recalls

/-- An alternating bus decides a tie against the direction served last. -/
theorem Tied.nextTurn_eq (h : b.Tied) (hfair : b.config.fairness = .alternate)
    (hlast : b.lastServed = some d) : b.nextTurn = some (d.opposite, .alternation) := by
  rw [nextTurn_of_waiters (h.rivals d) (h.rivals d.opposite),
    contested_alternate h.even hfair hlast]

/-! ### One operation, and a run -/

variable {ms : List Move} {op : Op} {ops : List Op}

theorem Recalls.performAll (h : b.Recalls) (hsound : b.Sound)
    (hms : ∀ m ∈ b.moments ms, m.Legal) : (b.performAll ms).Recalls :=
  (kept_performAll (fun _ _ hs hm hr => hr.perform hs.slots hm) hsound h hms).2

theorem Recalls.why_ne_of_begun (h : b.Recalls) (hsound : b.Sound) (hs : b.Settled)
    (hfair : b.config.fairness = .alternate) :
    ∀ k ∈ b.begun (b.moves op), k.why ≠ some .oldestFirst := by
  have hbegins := begins_moves hsound hs op
  generalize b.begun (b.moves op) = ks at hbegins
  cases hbegins with
  | nothing => simp
  | arrival => simp
  | turn _ hn => simpa using h.ne_oldestFirst hfair hn

/-- No cycle of a run of an alternating bus is begun for the oldest waiter. -/
theorem Recalls.why_ne_of_cycles (h : b.Recalls) (hsound : b.Sound) (hs : b.Settled)
    (hfair : b.config.fairness = .alternate) :
    ∀ k ∈ b.cycles ops, k.why ≠ some .oldestFirst := by
  induction ops generalizing b with
  | nil => simp [cycles, trace]
  | cons op ops ih =>
    have hnext : (b.step op).2.Recalls := by
      rw [step_eq_performAll]
      exact h.performAll hsound (legal_moves hsound hs op).1
    rw [cycles_cons, List.forall_mem_append]
    refine ⟨h.why_ne_of_begun hsound hs hfair, ?_⟩
    exact ih hnext (hsound.step hs op) (hs.step hsound op) (by rw [config_step]; exact hfair)

theorem head?_begun (hsound : b.Sound) (h0 : b.active = 0) (hw : b.hasWaiters d = true)
    (hms : ∀ m ∈ b.moments ms, m.Legal) (hend : (b.performAll ms).Settled) :
    (b.begun ms).head? = b.nextTurn.map fun x => ⟨x.1, some x.2⟩ := by
  -- somebody must be let in before the next operation, which finds the bus settled
  have hunsettled : ¬ b.Settled := fun hs => hs.active_ne_zero hw h0
  cases ms with
  | nil => exact absurd hend hunsettled
  | cons m ms =>
    rw [moments_cons, List.forall_mem_cons] at hms
    have hm : b.Legal m := hms.1
    cases hm with
    | board _ _ ht =>
      obtain ⟨r, rfl, hn⟩ := ht.chosen hsound.slots h0
      rw [begun_cons, cycle?_board, if_pos h0, hn]
      rfl
    | arrive hs | enqueue hs | collect hs | vacate hs | leave hs | refuse hs =>
      exact absurd hs hunsettled

variable {config : Config}

theorem recalls_new (config : Config) : (Bus.new config).Recalls where
  running _ hd := by cases hd
  waiting c hc := absurd (PerCell.get_replicate [] c) hc

/-- Between any two moves of a run the last direction is remembered, and the rest of the run is
legal moves that settle the bus. -/
theorem midway (hc : config.valid = true) {past future : List Move}
    (htrace : (Bus.new config).trace ops = past ++ future) :
    let s := (Bus.new config).performAll past
    s.Sound ∧ s.Recalls ∧ (∀ m ∈ s.moments future, m.Legal) ∧ (s.performAll future).Settled := by
  intro s
  obtain ⟨hlegal, hend⟩ := legal_trace (sound_new hc) (settled_new config) ops
  rw [history, htrace, moments_append, List.forall_mem_append] at hlegal
  rw [run_eq_performAll, htrace, performAll_append] at hend
  obtain ⟨hpast, hfuture⟩ := hlegal
  exact ⟨(sound_new hc).performAll hpast, (recalls_new config).performAll (sound_new hc) hpast,
    hfuture, hend⟩

/-- **The alternating rule knows whom to alternate with.**  After any run a running bus remembers
its own direction as the last one, and while somebody waits, some direction is remembered.  So under
the alternating rule no cycle of the run was begun for the oldest waiter.  And between any two of
its moves a tie goes against the direction of the last cycle: that is what the bus chooses, and if
it is empty, the cycle that it begins next. -/
theorem alternation_run (hc : config.valid = true) (ops : List Op) :
    let start := Bus.new config
    let b := (start.run ops).2
    (∀ d, b.current = some d → b.lastServed = some d) ∧
      (∀ t c, t ∈ b.waiting.get c → ∃ d, b.lastServed = some d) ∧
      (config.fairness = .alternate →
        (∀ k ∈ start.cycles ops, k.why ≠ some .oldestFirst) ∧
        ∀ past future, start.trace ops = past ++ future → (start.performAll past).Tied →
          ∃ k, (start.begun past).getLast? = some k ∧
            (start.performAll past).nextTurn = some (k.direction.opposite, .alternation) ∧
            ((start.performAll past).active = 0 →
              ((start.performAll past).begun future).head? =
                some ⟨k.direction.opposite, some .alternation⟩)) := by
  intro start b
  have hrecalls : b.Recalls := by
    obtain ⟨-, h, -⟩ := midway hc (List.append_nil (start.trace ops)).symm
    rwa [← run_eq_performAll] at h
  refine ⟨hrecalls.running, fun t c ht => hrecalls.waiting c (List.ne_nil_of_mem ht),
    fun hfair => ⟨?_, fun past future htrace htied => ?_⟩⟩
  · exact (recalls_new config).why_ne_of_cycles (sound_new hc) (settled_new config) hfair
  · obtain ⟨hsound, hmid, hlegal, hend⟩ := midway hc htrace
    obtain ⟨e, hlast⟩ := hmid.exists_last (htied.rivals .outbound)
    -- what the bus remembers is the direction of the last cycle
    have hcycle : (start.begun past).getLast?.map Cycle.direction = some e :=
      (remembers_performAll config past).last.symm.trans hlast
    obtain ⟨k, hk, rfl⟩ := Option.map_eq_some_iff.1 hcycle
    have hturn := htied.nextTurn_eq (by rw [config_performAll]; exact hfair) hlast
    refine ⟨k, hk, hturn, fun h0 => ?_⟩
    rw [head?_begun hsound h0 (htied.rivals .outbound) hlegal hend, hturn]
    rfl

/-- Elevated callers wait on both sides each time a slot is given back.  The bus turns from outbound
to inbound, and from there back again. -/
theorem alternation_run_there_and_back :
    let config : Config := ⟨1, .alternate, 1, false⟩
    let ops : List Op := [.request ⟨.outbound, .normal⟩, .request ⟨.outbound, .elevated⟩,
      .request ⟨.inbound, .elevated⟩, .releaseTicket 0, .request ⟨.inbound, .elevated⟩,
      .releaseTicket 2]
    let start := Bus.new config
    let b := (start.run ops).2
    let past : List Move := [.arrive 0 ⟨.outbound, .normal⟩, .enqueue 1 ⟨.outbound, .elevated⟩,
      .enqueue 2 ⟨.inbound, .elevated⟩, .vacate 0 ⟨.outbound, .normal⟩,
      .board 2 ⟨.inbound, .elevated⟩ (some .alternation), .enqueue 3 ⟨.inbound, .elevated⟩,
      .vacate 2 ⟨.inbound, .elevated⟩]
    let future : List Move := [.board 1 ⟨.outbound, .elevated⟩ (some .alternation)]
    config.valid = true ∧ config.fairness = .alternate ∧ start.trace ops = past ++ future ∧
      (start.performAll past).Tied ∧ (start.performAll past).active = 0 ∧
      b.current = some .outbound ∧ b.lastServed = some .outbound ∧
      3 ∈ b.waiting.get ⟨.inbound, .elevated⟩ ∧ (∃ d, b.lastServed = some d) ∧
      (∀ k ∈ start.cycles ops, k.why ≠ some .oldestFirst) ∧
      start.begun past = [⟨.outbound, none⟩, ⟨.inbound, some .alternation⟩] ∧
      (start.performAll past).nextTurn = some (.outbound, .alternation) ∧
      ((start.performAll past).begun future).head? = some ⟨.outbound, some .alternation⟩ := by
  intro config ops start b past future
  have hvalid : config.valid = true := by decide
  have htrace : start.trace ops = past ++ future := by decide
  have htied : (start.performAll past).Tied := ⟨fun d => by cases d <;> decide, by decide⟩
  have hempty : (start.performAll past).active = 0 := by decide
  have hcurrent : b.current = some .outbound := by decide
  have hwaits : 3 ∈ b.waiting.get ⟨.inbound, .elevated⟩ := by decide
  have hbegun : start.begun past = [⟨.outbound, none⟩, ⟨.inbound, some .alternation⟩] := by
    decide
  obtain ⟨hrunning, hwaiting, halternate⟩ := alternation_run hvalid ops
  obtain ⟨hwhy, hties⟩ := halternate rfl
  obtain ⟨k, hk, hturn, hnext⟩ := hties past future htrace htied
  obtain rfl : ⟨.inbound, some .alternation⟩ = k := by
    rw [hbegun] at hk
    exact Option.some.inj hk
  exact ⟨hvalid, rfl, htrace, htied, hempty, hcurrent, hrunning _ hcurrent, hwaits,
    hwaiting 3 _ hwaits, hwhy, hbegun, hturn, hnext hempty⟩

end Bus

end HalfDuplex

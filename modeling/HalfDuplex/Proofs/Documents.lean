import HalfDuplex.Proofs.Parsing
import HalfDuplex.Report.Document
import HalfDuplex.Workload.Document
import Mathlib.Data.List.Nodup

/-!
# Documents read back

Settings, workloads, snapshots, watches and reports are written as JSON records and read from them.
Between the two stands a text, so that a record reads back if its text reads as the value that was
written (`Value.read?_write`) and its fields are found in that value and fit.

* `Value.fields?_record` : a record has the fields that it was made of.
* `Config.InRange` and the like : the counts are machine words.
* `Config.ofJson?_toJson` and the like : a value in range reads back from its JSON form.
* `documents_read_back` : both texts of a value in range read as that value.
-/

namespace HalfDuplex

namespace Json

namespace Value

/-! ### Fields -/

theorem member?_of_mem {members : List (String × Value)} (hnodup : (members.map Prod.fst).Nodup)
    {m : String × Value} (hm : m ∈ members) :
    member? (members.map fun (k, v) => (some k, v)) m.1 = some m.2 := by
  induction members with
  | nil => cases hm
  | cons n members ih =>
    obtain ⟨hnew, hrest⟩ := List.nodup_cons.1 hnodup
    rcases List.mem_cons.1 hm with rfl | hm
    · simp [member?]
    · have hne : (m.1 == n.1) = false :=
        beq_false_of_ne fun heq => hnew (heq ▸ List.mem_map_of_mem hm)
      have hlater := ih hrest hm
      unfold member? at hlater ⊢
      simpa [List.lookup_cons, hne] using hlater

theorem wellKeyed_record {members : List (String × Value)}
    (hnodup : (members.map Prod.fst).Nodup) :
    wellKeyed (members.map Prod.fst) (members.map fun (k, v) => (some k, v)) = true := by
  have hcount : ∀ name, ((members.map fun (k, v) => (some k, v)).filter
      fun m => m.1 = some name).length = (members.map Prod.fst).count name := by
    intro name
    rw [← List.countP_eq_length_filter, List.count, List.countP_map, List.countP_map]
    refine List.countP_congr fun m _ => ?_
    simp
  rw [wellKeyed, Bool.and_eq_true, List.all_eq_true, List.all_eq_true]
  constructor
  · intro m hm
    obtain ⟨n, -, rfl⟩ := List.mem_map.1 hm
    rfl
  · intro name _
    rw [hcount, decide_eq_true_eq]
    exact List.nodup_iff_count_le_one.1 hnodup name

/-- A record has the fields that it was made of. -/
theorem fields?_record {members : List (String × Value)} {names : List String}
    (hnodup : names.Nodup) (hnames : members.map Prod.fst = names) (short : Bool) :
    (record members).fields? names short = some (members.map fun m => some m.2) := by
  subst hnames
  rw [record, fields?, if_pos (wellKeyed_record hnodup), List.map_map]
  exact congrArg some (List.map_congr_left fun m hm => member?_of_mem hnodup hm)

theorem onlyFields?_record {members : List (String × Value)} {names : List String}
    (hnodup : names.Nodup) (hnames : members.map Prod.fst = names) :
    (record members).onlyFields? names = some (members.map fun m => some m.2) := by
  have hknown : (members.map fun (k, v) => (some k, v)).all
      (fun m => m.1.any (· ∈ names)) = true := by
    rw [List.all_eq_true]
    intro m hm
    obtain ⟨n, hn, rfl⟩ := List.mem_map.1 hm
    exact decide_eq_true (hnames ▸ List.mem_map_of_mem hn)
  have hfields := fields?_record hnodup hnames false
  rw [record] at hfields ⊢
  rw [onlyFields?, if_pos hknown, hfields]

theorem natUpTo?_nat {limit n : Nat} (h : n ≤ limit) : (nat n).natUpTo? limit = some n := if_pos h

theorem required_nat {limit n : Nat} (h : n ≤ limit) :
    required (natUpTo? limit) (some (nat n)) = some n := natUpTo?_nat h

theorem list?_list {α : Type} {toJson : α → Value} {ofJson? : Value → Option α} {xs : List α}
    (h : ∀ x ∈ xs, ofJson? (toJson x) = some x) : (list toJson xs).list? ofJson? = some xs := by
  rw [list, list?]
  induction xs with
  | nil => rfl
  | cons x xs ih =>
    rw [List.forall_mem_cons] at h
    simp [h.1, ih h.2]

end Value

theorem nullable_optional {α : Type} {toJson : α → Value} {ofJson? : Value → Option α}
    {o : Option α} (hnull : ∀ a, toJson a ≠ .null)
    (h : ∀ a, o = some a → ofJson? (toJson a) = some a) :
    nullable ofJson? (some (.optional toJson o)) = some o := by
  cases o with
  | none => rfl
  | some a =>
    rw [Value.optional, nullable, h a rfl]
    · rfl
    · exact hnull a

end Json

open Json

theorem count?_nat {n : Nat} (h : n ≤ Word.max64) : count? (.nat n) = some n :=
  Value.natUpTo?_nat h

/-! ### Names -/

theorem Fairness.ofJson?_toJson (f : Fairness) : ofJson? f.toJson = some f := by cases f <;> rfl

theorem Direction.ofJson?_toJson (d : Direction) : ofJson? d.toJson = some d := by cases d <;> rfl

theorem Priority.ofJson?_toJson (p : Priority) : ofJson? p.toJson = some p := by cases p <;> rfl

theorem Passage.ofJson?_toJson (p : Passage) : ofJson? p.toJson = some p := by cases p <;> rfl

/-! ### Records -/

namespace Config

/-- The numbers are machine words. -/
structure InRange (c : Config) : Prop where
  capacity : c.capacity ≤ Word.max64
  streakLimit : c.streakLimit ≤ Word.max32

theorem ofJson?_toJson {c : Config} (h : c.InRange) : ofJson? c.toJson = some c := by
  have hfields : c.toJson.fields? fieldNames true = some [some (.nat c.capacity),
      some c.fairness.toJson, some (.nat c.streakLimit), some (.bool c.yieldToOpposite)] :=
    Value.fields?_record (by decide : fieldNames.Nodup) rfl true
  simp [ofJson?, hfields, orElse, Value.natUpTo?_nat, h.capacity, h.streakLimit,
    Fairness.ofJson?_toJson, Value.bool?]

end Config

namespace Workload

/-- The numbers are machine words, in the settings of the bus too. -/
structure InRange (w : Workload) : Prop where
  capacity : w.capacity ≤ Word.max64
  tasks : ∀ b ∈ w.batches, b.2 ≤ Word.max64
  seed : w.seed ≤ Word.max64
  maxTicks : w.maxTicks ≤ Word.max64
  tickMicros : w.tickMicros ≤ Word.max64
  bus : ∀ c, w.bus = some c → c.InRange

theorem ofJson?_toJson {w : Workload} (h : w.InRange) : ofJson? w.toJson = some w := by
  have hfields : w.toJson.fields? fieldNames true = some [some (.nat w.capacity),
      some (.nat w.outboundNormal), some (.nat w.inboundNormal), some (.nat w.outboundElevated),
      some (.nat w.inboundElevated), some (.nat w.seed), some (.nat w.maxTicks),
      some (.nat w.tickMicros), some (.optional Config.toJson w.bus)] :=
    Value.fields?_record (by decide : fieldNames.Nodup) rfl true
  have hbus : nullable Config.ofJson? (some (.optional Config.toJson w.bus)) = some w.bus :=
    nullable_optional (fun _ => nofun) fun c hc => Config.ofJson?_toJson (h.bus c hc)
  have htasks := h.tasks
  simp only [batches, List.forall_mem_cons] at htasks
  simp [ofJson?, hfields, orElse, count?_nat, h.capacity, htasks, h.seed, h.maxTicks,
    h.tickMicros, hbus]

end Workload

namespace PerCell

/-- The counts are machine words. -/
def InRange (f : PerCell Nat) : Prop := ∀ n ∈ f.toList, n ≤ Word.max64

theorem ofJson?_toJson {f : PerCell Nat} (h : f.InRange) : ofJson? f.toJson = some f := by
  have hfields : f.toJson.fields? fieldNames false = some [some (.nat f.outboundElevated),
      some (.nat f.outboundNormal), some (.nat f.inboundElevated), some (.nat f.inboundNormal)] :=
    Value.fields?_record (by decide : fieldNames.Nodup) rfl false
  simp only [InRange, toList, List.forall_mem_cons] at h
  simp [ofJson?, hfields, required, count?_nat, h]

end PerCell

namespace Stats

/-- The counters are machine words. -/
def InRange (s : Stats) : Prop := ∀ n ∈ s.toList, n ≤ Word.max64

theorem ofJson?_toJson {s : Stats} (h : s.InRange) : ofJson? s.toJson = some s := by
  have hfields : s.toJson.fields? fieldNames false = some (s.toList.map fun n => some (.nat n)) :=
    Value.fields?_record (by decide : fieldNames.Nodup) rfl false
  simp only [InRange, toList, tallies, List.cons_append, List.nil_append,
    List.forall_mem_cons] at h
  simp [ofJson?, hfields, toList, tallies, required, count?_nat, h]

end Stats

namespace Snapshot

/-- The numbers are machine words. -/
structure InRange (s : Snapshot) : Prop where
  capacity : s.capacity ≤ Word.max64
  active : s.active ≤ Word.max64
  waiting : s.waiting.InRange
  held : s.held.InRange
  stats : s.stats.InRange

theorem ofJson?_toJson {s : Snapshot} (h : s.InRange) : ofJson? s.toJson = some s := by
  have hfields : s.toJson.fields? fieldNames false = some [some (.nat s.capacity),
      some (.nat s.active), some (.optional Direction.toJson s.current),
      some (.optional Direction.toJson s.lastServed), some s.waiting.toJson, some s.held.toJson,
      some s.stats.toJson] :=
    Value.fields?_record (by decide : fieldNames.Nodup) rfl false
  have hdirection : ∀ o : Option Direction,
      nullable Direction.ofJson? (some (.optional Direction.toJson o)) = some o :=
    fun o => nullable_optional (fun _ => nofun) fun d _ => d.ofJson?_toJson
  simp [ofJson?, hfields, required, count?_nat, h.capacity, h.active, hdirection,
    PerCell.ofJson?_toJson h.waiting, PerCell.ofJson?_toJson h.held,
    Stats.ofJson?_toJson h.stats]

end Snapshot

namespace TraceEvent

/-- The numbers are machine words. -/
structure InRange (e : TraceEvent) : Prop where
  task : e.task ≤ Word.max64
  inside : e.inside ≤ Word.max64
  atMicros : e.atMicros ≤ Word.max64

theorem ofJson?_toJson {e : TraceEvent} (h : e.InRange) : ofJson? e.toJson = some e := by
  have hfields : e.toJson.fields? fieldNames false = some [some e.kind.toJson,
      some (.nat e.task), some e.direction.toJson, some e.priority.toJson, some (.nat e.inside),
      some (.nat e.atMicros)] :=
    Value.fields?_record (by decide : fieldNames.Nodup) rfl false
  simp [ofJson?, hfields, required, count?_nat, h.task, h.inside, h.atMicros,
    Passage.ofJson?_toJson, Direction.ofJson?_toJson, Priority.ofJson?_toJson]

end TraceEvent

namespace Observed

/-- The numbers are machine words. -/
structure InRange (o : Observed) : Prop where
  peak : o.peak ≤ Word.max64
  capacityViolations : o.capacityViolations ≤ Word.max64
  directionViolations : o.directionViolations ≤ Word.max64
  trace : ∀ e ∈ o.trace, e.InRange

theorem ofJson?_toJson {o : Observed} (h : o.InRange) : ofJson? o.toJson = some o := by
  have hfields : o.toJson.fields? fieldNames false = some [some (.nat o.peak),
      some (.nat o.capacityViolations), some (.nat o.directionViolations),
      some (.list TraceEvent.toJson o.trace)] :=
    Value.fields?_record (by decide : fieldNames.Nodup) rfl false
  have htrace : (Value.list TraceEvent.toJson o.trace).list? TraceEvent.ofJson? = some o.trace :=
    Value.list?_list fun e he => TraceEvent.ofJson?_toJson (h.trace e he)
  simp [ofJson?, hfields, required, count?_nat, h.peak, h.capacityViolations,
    h.directionViolations, htrace]

end Observed

namespace Span

/-- The time is not longer than the longest one. -/
def InRange (s : Span) : Prop := s.nanos ≤ longest.nanos

theorem seconds_le {s : Span} (h : s.InRange) : s.seconds ≤ Word.max64 := by
  have hlongest : longest.nanos = Word.max64 * nanosPerSecond + 999999999 := rfl
  have hlt : s.nanos < (Word.max64 + 1) * nanosPerSecond := by
    rw [InRange, hlongest] at h
    rw [Nat.add_mul, Nat.one_mul]
    exact Nat.lt_of_le_of_lt h (Nat.add_lt_add_left (by decide) _)
  exact Nat.le_of_lt_succ (Nat.div_lt_of_lt_mul (Nat.mul_comm _ _ ▸ hlt))

theorem subNanos_le (s : Span) : s.subNanos ≤ Word.max32 := by
  have hlt : s.subNanos < nanosPerSecond := Nat.mod_lt _ (by decide)
  exact Nat.le_trans (Nat.le_of_lt hlt) (by decide)

theorem ofSeconds_seconds (s : Span) : ofSeconds s.seconds s.subNanos = s := by
  rw [ofSeconds, seconds, subNanos, Nat.div_add_mod']

theorem ofJson?_of_fields {v : Value} {a b : Nat}
    (hfields : v.onlyFields? fieldNames = some [some (.nat a), some (.nat b)])
    (ha : a ≤ Word.max64) (hb : b ≤ Word.max32) (hspan : (ofSeconds a b).InRange) :
    ofJson? v = some (ofSeconds a b) := by
  have hseconds := Value.required_nat ha
  have hnanos := Value.required_nat hb
  rw [InRange] at hspan
  unfold ofJson?
  simp only [hfields]
  -- field by field: a general simplification would compute with the longest time
  rw [hseconds, Option.bind_eq_bind, Option.bind_some, hnanos, Option.bind_some, if_pos hspan]

theorem ofJson?_toJson {s : Span} (h : s.InRange) : ofJson? s.toJson = some s := by
  have hfields : s.toJson.onlyFields? fieldNames =
      some [some (.nat s.seconds), some (.nat s.subNanos)] :=
    Value.onlyFields?_record (by decide : fieldNames.Nodup) rfl
  have hwhole : (ofSeconds s.seconds s.subNanos).InRange := s.ofSeconds_seconds.symm ▸ h
  have hread := ofJson?_of_fields hfields (seconds_le h) s.subNanos_le hwhole
  exact hread.trans (congrArg some s.ofSeconds_seconds)

end Span

namespace Report

/-- The numbers are machine words, and the time is not too long. -/
structure InRange (r : Report) : Prop where
  tasks : r.tasks ≤ Word.max64
  admissionOrder : ∀ n ∈ r.admissionOrder, n ≤ Word.max64
  peakConcurrency : r.peakConcurrency ≤ Word.max64
  capacityViolations : r.capacityViolations ≤ Word.max64
  directionViolations : r.directionViolations ≤ Word.max64
  elapsed : r.elapsed.InRange
  trace : ∀ e ∈ r.trace, e.InRange
  bus : r.bus.InRange

theorem ofJson?_toJson {r : Report} (h : r.InRange) : ofJson? r.toJson = some r := by
  have hfields : r.toJson.fields? fieldNames false = some [some (.nat r.tasks),
      some (.list .nat r.admissionOrder), some (.list .bool r.waited),
      some (.nat r.peakConcurrency), some (.nat r.capacityViolations),
      some (.nat r.directionViolations), some r.elapsed.toJson,
      some (.list TraceEvent.toJson r.trace), some r.bus.toJson] :=
    Value.fields?_record (by decide : fieldNames.Nodup) rfl false
  have horder : (Value.list .nat r.admissionOrder).list? count? = some r.admissionOrder :=
    Value.list?_list fun n hn => count?_nat (h.admissionOrder n hn)
  have hwaited : (Value.list .bool r.waited).list? Value.bool? = some r.waited :=
    Value.list?_list fun _ _ => rfl
  have htrace : (Value.list TraceEvent.toJson r.trace).list? TraceEvent.ofJson? = some r.trace :=
    Value.list?_list fun e he => TraceEvent.ofJson?_toJson (h.trace e he)
  simp [ofJson?, hfields, required, count?_nat, h.tasks, horder, hwaited, h.peakConcurrency,
    h.capacityViolations, h.directionViolations, Span.ofJson?_toJson h.elapsed, htrace,
    Snapshot.ofJson?_toJson h.bus]

end Report

/-! ### Texts -/

/-- Both texts of `a` read as `a`: the one without blanks and the one over several lines. -/
def ReadsBack {α : Type} (toJson : α → Value) (read? : String → Option α) (a : α) : Prop :=
  read? (toJson a).write = some a ∧ read? (toJson a).writeLines = some a

/-- What reads back from its JSON form reads back from both texts. -/
theorem readsBack_of_ofJson? {α : Type} {toJson : α → Value} {ofJson? : Value → Option α} {a : α}
    (h : ofJson? (toJson a) = some a) :
    ReadsBack toJson (fun s => (Value.read? s).bind ofJson?) a := by
  constructor
  · show (Value.read? (toJson a).write).bind ofJson? = some a
    rw [Value.read?_write, Option.bind_some, h]
  · show (Value.read? (toJson a).writeLines).bind ofJson? = some a
    rw [Value.read?_writeLines, Option.bind_some, h]

/-- **Documents read back.**  The texts of settings, of a workload with or without settings of its
own, of a snapshot, of a watch and of a report read as what was written, for all numbers that are
machine words, traces of any length and any time that is not longer than the longest one. -/
theorem documents_read_back :
    (∀ c : Config, c.InRange → ReadsBack Config.toJson Config.read? c) ∧
      (∀ w : Workload, w.InRange → ReadsBack Workload.toJson Workload.read? w) ∧
      (∀ s : Snapshot, s.InRange → ReadsBack Snapshot.toJson Snapshot.read? s) ∧
      (∀ o : Observed, o.InRange → ReadsBack Observed.toJson Observed.read? o) ∧
      ∀ r : Report, r.InRange → ReadsBack Report.toJson Report.read? r := by
  refine ⟨?_, ?_, ?_, ?_, ?_⟩
  · intro c h
    exact readsBack_of_ofJson? (Config.ofJson?_toJson h)
  · intro w h
    exact readsBack_of_ofJson? (Workload.ofJson?_toJson h)
  · intro s h
    exact readsBack_of_ofJson? (Snapshot.ofJson?_toJson h)
  · intro o h
    exact readsBack_of_ofJson? (Observed.ofJson?_toJson h)
  · intro r h
    exact readsBack_of_ofJson? (Report.ofJson?_toJson h)

/-- The largest numbers, the longest time, and a direction that is there and one that is not. -/
theorem documents_read_back_largest :
    let n := Word.max64
    let c : Config := ⟨n, .oldestFirst, Word.max32, true⟩
    let s : Snapshot := ⟨n, n, some .inbound, none, ⟨n, n, n, n⟩, ⟨n, n, n, n⟩,
      ⟨n, n, n, n, n, n, n, n, n, n, n, n⟩⟩
    let r : Report := ⟨n, [n, 0], [true, false], n, n, n, .longest,
      [⟨.enter, n, .outbound, .elevated, n, n⟩, ⟨.leave, n, .inbound, .normal, n, n⟩], s⟩
    ReadsBack Workload.toJson Workload.read? ⟨n, n, n, n, n, n, n, n, some c⟩ ∧
      ReadsBack Report.toJson Report.read? r := by
  intro n c s r
  have hn : n ≤ Word.max64 := Nat.le_refl n
  have hall : ∀ k, ∀ m ∈ List.replicate k n, m ≤ Word.max64 := by
    intro k m hm
    exact Nat.le_of_eq (List.eq_of_mem_replicate hm)
  have hbus : ∀ c', some c = some c' → c'.InRange := by
    rintro c' ⟨⟩
    exact ⟨hn, Nat.le_refl _⟩
  have hs : s.InRange := ⟨hn, hn, hall 4, hall 4, hall 12⟩
  have horder : ∀ m ∈ [n, 0], m ≤ Word.max64 := by simp [hn]
  have htrace : ∀ e ∈ r.trace, e.InRange :=
    List.forall_mem_cons.2 ⟨⟨hn, hn, hn⟩, List.forall_mem_singleton.2 ⟨hn, hn, hn⟩⟩
  obtain ⟨-, hworkloads, -, -, hreports⟩ := documents_read_back
  refine ⟨hworkloads _ ⟨hn, ?_, hn, hn, hn, hbus⟩,
    hreports _ ⟨hn, horder, hn, hn, hn, Nat.le_refl _, htrace, hs⟩⟩
  intro b hb
  exact hall 4 b.2 (List.mem_map_of_mem hb)

end HalfDuplex

import HalfDuplex.Proofs.Grammar
import HalfDuplex.Workload.Document
import Mathlib.Data.List.Nodup

/-!
# Documents that leave fields out

A document of settings or of a workload may leave out any field, and what it leaves out keeps its
standard value.  A draft is what such a document gives: some fields have a value and some have none.
Which draft a document gives is said field by field, by the values that stand under the name of the
field, so that neither the order of the members matters nor what other members there are.

* `Value.given` : the values that a record gives for a field.
* `Value.fields?_eq_some_iff` : the fields are found where each of them is given at most once.
* `Given`, `GivenOrNull` : how the values that are given for a field are read.
* `Config.Draft`, `Workload.Draft` : what a document gives, `Of` the documents that give it.
* `Config.Draft.Of.ofJson?`, `Workload.Draft.Of.ofJson?` : a value is read as the draft that it
  gives, completed by the standard values.
* `Workload.ofJson?_eq_some_iff` : no other value is read as a workload.
* `Workload.read_partial` : the same of the texts of the grammar.
-/

namespace HalfDuplex

namespace Json

namespace Value

/-! ### The fields of a record -/

/-- The values that a record with the field names `names` gives for the field `name`. -/
def given (names : List String) (name : String) : Value → List Value
  | object members => (members.filter fun m => m.1 = some name).map Prod.snd
  | array items => (items[names.idxOf name]?).toList
  | _ => []

/-- A value that can be a record with these field names: an object in which every key is a text, or
an array that has not too many items. -/
def IsRecord (names : List String) : Value → Prop
  | object members => ∀ m ∈ members, m.1.isSome = true
  | array items => items.length ≤ names.length
  | _ => False

theorem member?_eq_head? (names : List String) (members : List (Option String × Value))
    (name : String) : member? members name = ((object members).given names name).head? := by
  induction members with
  | nil => rfl
  | cons m members ih =>
    obtain ⟨k, v⟩ := m
    unfold member? at ih ⊢
    by_cases hk : k = some name
    · simp [given, hk]
    · have hne : (some name == k) = false := beq_false_of_ne (Ne.symm hk)
      rw [List.lookup_cons, hne, ih]
      simp [given, hk]

theorem fields_array {names : List String} (hnodup : names.Nodup) {items : List Value}
    (hlen : items.length ≤ names.length) :
    items.map some ++ List.replicate (names.length - items.length) none =
      names.map fun name => ((array items).given names name).head? := by
  refine List.ext_getElem (by simp; omega) fun i hi hi' => ?_
  have hname : i < names.length := by simpa using hi'
  have hfield : ((array items).given names names[i]).head? = items[i]? := by
    rw [given, hnodup.idxOf_getElem]
    cases items[i]? <;> rfl
  rw [List.getElem_map, hfield]
  by_cases hitem : i < items.length
  · rw [List.getElem_append_left (by simpa using hitem)]
    simp [hitem]
  · rw [List.getElem_append_right (by simpa using hitem)]
    simp [hitem]

/-- The fields of a record are found if each of them is given at most once. -/
theorem fields?_eq_some_iff {names : List String} (hnodup : names.Nodup) {v : Value}
    {fields : List (Option Value)} : v.fields? names true = some fields ↔
      v.IsRecord names ∧ (∀ name ∈ names, (v.given names name).length ≤ 1) ∧
        fields = names.map fun name => (v.given names name).head? := by
  cases v with
  | null | bool | number | string => simp [fields?, IsRecord]
  | array items =>
    have hsingle : ∀ name ∈ names, ((array items).given names name).length ≤ 1 := by
      intro name _
      rw [given]
      cases items[names.idxOf name]? <;> simp
    have hshort : (items.length = names.length ∨ (true = true ∧ items.length ≤ names.length)) ↔
        items.length ≤ names.length := by
      simp only [true_and, or_iff_right_iff_imp]
      exact Nat.le_of_eq
    rw [fields?, Option.ite_none_right_eq_some, hshort, IsRecord]
    refine and_congr_right fun hlen => ?_
    rw [fields_array hnodup hlen, Option.some.injEq, eq_comm, and_iff_right hsingle]
  | object members =>
    have hkeyed : wellKeyed names members = true ↔ (∀ m ∈ members, m.1.isSome = true) ∧
        ∀ name ∈ names, ((object members).given names name).length ≤ 1 := by
      simp [wellKeyed, given]
    have hfields : names.map (member? members) =
        names.map fun name => ((object members).given names name).head? :=
      List.map_congr_left fun name _ => member?_eq_head? names members name
    rw [fields?, Option.ite_none_right_eq_some, hkeyed, hfields, and_assoc, Option.some.injEq,
      eq_comm]
    rfl

/-! ### Single values -/

/-- `v` is the natural number `n`, which is below `limit`. -/
def IsCount (limit : Nat) (v : Value) (n : Nat) : Prop := v = .nat n ∧ n < limit

/-- `v` is the truth value `b`. -/
def IsSwitch (v : Value) (b : Bool) : Prop := v = .bool b

/-- `v` is the choice `name`: a text, or an object with that one key and null. -/
def IsChoice (v : Value) (name : String) : Prop :=
  v = .text name ∨ v = .object [(some name, .null)]

theorem natUpTo?_eq_some_iff {limit n : Nat} (hlimit : 0 < limit) {v : Value} :
    v.natUpTo? (limit - 1) = some n ↔ v.IsCount limit n := by
  cases v with
  | null | bool | string | array | object => simp [natUpTo?, IsCount, nat]
  | number m =>
    cases m with
    | none => simp [natUpTo?, IsCount, nat]
    | some m =>
      simp only [natUpTo?, IsCount, nat, Option.ite_none_right_eq_some, Option.some.injEq,
        number.injEq]
      omega

theorem natUpTo?_max64 {v : Value} {n : Nat} :
    v.natUpTo? Word.max64 = some n ↔ v.IsCount Word.count64 n :=
  natUpTo?_eq_some_iff (by decide)

theorem natUpTo?_max32 {v : Value} {n : Nat} :
    v.natUpTo? Word.max32 = some n ↔ v.IsCount Word.count32 n :=
  natUpTo?_eq_some_iff (by decide)

theorem bool?_eq_some_iff {v : Value} {b : Bool} : v.bool? = some b ↔ v.IsSwitch b := by
  cases v <;> simp [bool?, IsSwitch]

theorem choice?_eq_some_iff {v : Value} {name : String} :
    v.choice? = some name ↔ v.IsChoice name := by
  unfold choice?
  split <;> simp_all [IsChoice, text]

end Value

/-! ### Fields that may be missing -/

variable {α : Type} {reads : Value → α → Prop} {f : Value → Option α} {vs : List Value}
  {o : Option α}

/-- How a field is read for which the values `vs` are given: it is missing, or given once. -/
inductive Given (reads : Value → α → Prop) : List Value → Option α → Prop where
  | missing : Given reads [] none
  | once {v : Value} {a : α} : reads v a → Given reads [v] (some a)

/-- How a field is read that may also be null. -/
inductive GivenOrNull (reads : Value → α → Prop) : List Value → Option α → Prop where
  | missing : GivenOrNull reads [] none
  | null : GivenOrNull reads [.null] none
  | once {v : Value} {a : α} : v ≠ .null → reads v a → GivenOrNull reads [v] (some a)

namespace Given

theorem length_le (h : Given reads vs o) : vs.length ≤ 1 := by
  cases h <;> simp

theorem orElse_eq (hf : ∀ {v a}, f v = some a ↔ reads v a) (h : Given reads vs o) (default : α) :
    orElse default f vs.head? = some (o.getD default) := by
  cases h with
  | missing => rfl
  | once hread => exact hf.2 hread

theorem exists_of_orElse (hf : ∀ {v a}, f v = some a ↔ reads v a) (hvs : vs.length ≤ 1)
    {default a : α} (h : orElse default f vs.head? = some a) : ∃ o, Given reads vs o := by
  match vs with
  | [] => exact ⟨none, .missing⟩
  | [v] => exact ⟨some a, .once (hf.1 h)⟩

end Given

namespace GivenOrNull

variable {β : Type} {read : Value → Option β} {value : α → β}

theorem length_le (h : GivenOrNull reads vs o) : vs.length ≤ 1 := by
  cases h <;> simp

theorem nullable_eq (hread : ∀ {v a}, reads v a → read v = some (value a))
    (h : GivenOrNull reads vs o) : nullable read vs.head? = some (o.map value) := by
  cases h with
  | missing => rfl
  | null => rfl
  | once hnull hv =>
    rw [List.head?_cons, nullable, hread hv]
    · rfl
    · exact hnull

theorem exists_of_nullable (hread : ∀ {v b}, read v = some b → ∃ a, reads v a)
    (hvs : vs.length ≤ 1) {b : Option β} (h : nullable read vs.head? = some b) :
    ∃ o, GivenOrNull reads vs o := by
  match vs with
  | [] => exact ⟨none, .missing⟩
  | [v] =>
    by_cases hnull : v = .null
    · exact ⟨none, hnull ▸ .null⟩
    · rw [List.head?_cons, nullable] at h
      · obtain ⟨b, hb, -⟩ := Option.map_eq_some_iff.1 h
        obtain ⟨a, ha⟩ := hread hb
        exact ⟨some a, .once hnull ha⟩
      · exact hnull

end GivenOrNull

end Json

open Json

/-! ### Settings -/

theorem Fairness.ofName?_eq_some_iff {name : String} {rule : Fairness} :
    ofName? name = some rule ↔ name = rule.name := by
  unfold ofName?
  split_ifs with halternate holdest
  · cases rule <;> simp [Fairness.name, halternate]
  · cases rule <;> simp [Fairness.name, holdest]
  · cases rule <;> simp [Fairness.name, halternate, holdest]

theorem Fairness.ofJson?_eq_some_iff {v : Value} {rule : Fairness} :
    ofJson? v = some rule ↔ v.IsChoice rule.name := by
  rw [ofJson?, Option.bind_eq_some_iff]
  simp only [ofName?_eq_some_iff, Value.choice?_eq_some_iff, exists_eq_right]

namespace Config

/-- What a document of settings gives. -/
structure Draft where
  capacity : Option Nat := none
  fairness : Option Fairness := none
  streakLimit : Option Nat := none
  yieldToOpposite : Option Bool := none
  deriving DecidableEq, Repr

namespace Draft

/-- The settings of a draft: what is not given is standard. -/
def complete (d : Draft) : Config where
  capacity := d.capacity.getD standard.capacity
  fairness := d.fairness.getD standard.fairness
  streakLimit := d.streakLimit.getD standard.streakLimit
  yieldToOpposite := d.yieldToOpposite.getD standard.yieldToOpposite

/-- The value `v` is a document that gives the draft: each field of the draft stands in it once, and
with its value, and the other fields are missing.  There may be anything under other names. -/
structure Of (d : Draft) (v : Value) : Prop where
  record : v.IsRecord fieldNames
  capacity : Given (Value.IsCount Word.count64) (v.given fieldNames "capacity") d.capacity
  fairness : Given (fun v rule => v.IsChoice rule.name) (v.given fieldNames "fairness") d.fairness
  streakLimit :
    Given (Value.IsCount Word.count32) (v.given fieldNames "elevated_streak_limit") d.streakLimit
  yieldToOpposite :
    Given Value.IsSwitch (v.given fieldNames "yield_to_opposite") d.yieldToOpposite

end Draft

theorem fieldNames_nodup : fieldNames.Nodup := by decide

theorem map_fieldNames {α : Type} (f : String → α) : fieldNames.map f =
    [f "capacity", f "fairness", f "elevated_streak_limit", f "yield_to_opposite"] := rfl

variable {v : Value} {d : Draft} {c : Config}

theorem Draft.Of.ofJson? (h : d.Of v) : ofJson? v = some d.complete := by
  have hsingle : ∀ name ∈ fieldNames, (v.given fieldNames name).length ≤ 1 := by
    rw [fieldNames, List.forall_mem_cons, List.forall_mem_cons, List.forall_mem_cons,
      List.forall_mem_singleton]
    exact ⟨h.capacity.length_le, h.fairness.length_le, h.streakLimit.length_le,
      h.yieldToOpposite.length_le⟩
  have hfields := (Value.fields?_eq_some_iff fieldNames_nodup).2 ⟨h.record, hsingle, rfl⟩
  rw [map_fieldNames] at hfields
  simp only [Config.ofJson?, hfields]
  rw [h.capacity.orElse_eq Value.natUpTo?_max64,
    h.fairness.orElse_eq Fairness.ofJson?_eq_some_iff,
    h.streakLimit.orElse_eq Value.natUpTo?_max32,
    h.yieldToOpposite.orElse_eq Value.bool?_eq_some_iff]
  rfl

theorem exists_draft (h : ofJson? v = some c) : ∃ d : Draft, d.Of v := by
  unfold ofJson? at h
  cases hfields : v.fields? fieldNames true with
  | none => simp [hfields] at h
  | some fields =>
    obtain ⟨hrecord, hsingle, rfl⟩ := (Value.fields?_eq_some_iff fieldNames_nodup).1 hfields
    rw [hfields, map_fieldNames] at h
    simp only [Option.bind_eq_bind, Option.bind_eq_some_iff] at h
    obtain ⟨_, hcapacity, _, hfairness, _, hlimit, _, hyield, -⟩ := h
    obtain ⟨capacity, hcapacity⟩ :=
      Given.exists_of_orElse Value.natUpTo?_max64 (hsingle "capacity" (by decide)) hcapacity
    obtain ⟨fairness, hfairness⟩ :=
      Given.exists_of_orElse Fairness.ofJson?_eq_some_iff (hsingle "fairness" (by decide)) hfairness
    obtain ⟨limit, hlimit⟩ := Given.exists_of_orElse Value.natUpTo?_max32
      (hsingle "elevated_streak_limit" (by decide)) hlimit
    obtain ⟨yield, hyield⟩ := Given.exists_of_orElse Value.bool?_eq_some_iff
      (hsingle "yield_to_opposite" (by decide)) hyield
    exact ⟨⟨capacity, fairness, limit, yield⟩, hrecord, hcapacity, hfairness, hlimit, hyield⟩

end Config

/-! ### Workloads -/

namespace Workload

/-- What a document of a workload gives. -/
structure Draft where
  capacity : Option Nat := none
  outboundNormal : Option Nat := none
  inboundNormal : Option Nat := none
  outboundElevated : Option Nat := none
  inboundElevated : Option Nat := none
  seed : Option Nat := none
  maxTicks : Option Nat := none
  tickMicros : Option Nat := none
  bus : Option Config.Draft := none
  deriving DecidableEq, Repr

namespace Draft

/-- The workload of a draft: what is not given is standard. -/
def complete (d : Draft) : Workload where
  capacity := d.capacity.getD standard.capacity
  outboundNormal := d.outboundNormal.getD standard.outboundNormal
  inboundNormal := d.inboundNormal.getD standard.inboundNormal
  outboundElevated := d.outboundElevated.getD standard.outboundElevated
  inboundElevated := d.inboundElevated.getD standard.inboundElevated
  seed := d.seed.getD standard.seed
  maxTicks := d.maxTicks.getD standard.maxTicks
  tickMicros := d.tickMicros.getD standard.tickMicros
  bus := d.bus.map Config.Draft.complete

/-- `v` gives the count `o` for the field `name`, or none. -/
def Counts (v : Value) (name : String) (o : Option Nat) : Prop :=
  Given (Value.IsCount Word.count64) (v.given fieldNames name) o

/-- The value `v` is a document that gives the draft: each field of the draft stands in it once, and
with its value, and the other fields are missing.  The settings of the bus are a draft of their own,
and null is as good as none.  There may be anything under other names. -/
structure Of (d : Draft) (v : Value) : Prop where
  record : v.IsRecord fieldNames
  capacity : Counts v "capacity" d.capacity
  outboundNormal : Counts v "outbound_normal" d.outboundNormal
  inboundNormal : Counts v "inbound_normal" d.inboundNormal
  outboundElevated : Counts v "outbound_elevated" d.outboundElevated
  inboundElevated : Counts v "inbound_elevated" d.inboundElevated
  seed : Counts v "seed" d.seed
  maxTicks : Counts v "max_ticks" d.maxTicks
  tickMicros : Counts v "tick_micros" d.tickMicros
  bus : GivenOrNull (fun v (c : Config.Draft) => c.Of v) (v.given fieldNames "arbiter") d.bus

end Draft

theorem fieldNames_nodup : fieldNames.Nodup := by decide

theorem map_fieldNames {α : Type} (f : String → α) : fieldNames.map f =
    [f "capacity", f "outbound_normal", f "inbound_normal", f "outbound_elevated",
      f "inbound_elevated", f "seed", f "max_ticks", f "tick_micros", f "arbiter"] := rfl

variable {v : Value} {d : Draft} {w : Workload}

theorem Draft.Of.ofJson? (h : d.Of v) : ofJson? v = some d.complete := by
  have hsingle : ∀ name ∈ fieldNames, (v.given fieldNames name).length ≤ 1 := by
    simp only [fieldNames, List.forall_mem_cons, List.not_mem_nil, false_imp_iff, implies_true,
      and_true]
    exact ⟨h.capacity.length_le, h.outboundNormal.length_le, h.inboundNormal.length_le,
      h.outboundElevated.length_le, h.inboundElevated.length_le, h.seed.length_le,
      h.maxTicks.length_le, h.tickMicros.length_le, h.bus.length_le⟩
  have hfields := (Value.fields?_eq_some_iff fieldNames_nodup).2 ⟨h.record, hsingle, rfl⟩
  have hcount : ∀ {name o}, Draft.Counts v name o → ∀ default,
      orElse default count? (v.given fieldNames name).head? = some (o.getD default) :=
    fun hgiven => hgiven.orElse_eq Value.natUpTo?_max64
  have hbus : nullable Config.ofJson? (v.given fieldNames "arbiter").head? =
      some (d.bus.map Config.Draft.complete) := h.bus.nullable_eq fun hc => hc.ofJson?
  rw [map_fieldNames] at hfields
  simp only [Workload.ofJson?, hfields]
  rw [hcount h.capacity, hcount h.outboundNormal, hcount h.inboundNormal,
    hcount h.outboundElevated, hcount h.inboundElevated, hcount h.seed, hcount h.maxTicks,
    hcount h.tickMicros, hbus]
  rfl

theorem exists_draft (h : ofJson? v = some w) : ∃ d : Draft, d.Of v := by
  unfold ofJson? at h
  cases hfields : v.fields? fieldNames true with
  | none => simp [hfields] at h
  | some fields =>
    obtain ⟨hrecord, hsingle, rfl⟩ := (Value.fields?_eq_some_iff fieldNames_nodup).1 hfields
    have hcount : ∀ {name default n}, name ∈ fieldNames →
        orElse default count? (v.given fieldNames name).head? = some n →
          ∃ o, Draft.Counts v name o :=
      fun hname => Given.exists_of_orElse Value.natUpTo?_max64 (hsingle _ hname)
    rw [hfields, map_fieldNames] at h
    simp only [Option.bind_eq_bind, Option.bind_eq_some_iff] at h
    obtain ⟨_, hcapacity, _, houtNormal, _, hinNormal, _, houtElevated, _, hinElevated, _, hseed,
      _, hmaxTicks, _, htickMicros, _, hbus, -⟩ := h
    obtain ⟨_, hcapacity⟩ := hcount (by decide) hcapacity
    obtain ⟨_, houtNormal⟩ := hcount (by decide) houtNormal
    obtain ⟨_, hinNormal⟩ := hcount (by decide) hinNormal
    obtain ⟨_, houtElevated⟩ := hcount (by decide) houtElevated
    obtain ⟨_, hinElevated⟩ := hcount (by decide) hinElevated
    obtain ⟨_, hseed⟩ := hcount (by decide) hseed
    obtain ⟨_, hmaxTicks⟩ := hcount (by decide) hmaxTicks
    obtain ⟨_, htickMicros⟩ := hcount (by decide) htickMicros
    obtain ⟨_, hbus⟩ :=
      GivenOrNull.exists_of_nullable Config.exists_draft (hsingle "arbiter" (by decide)) hbus
    exact ⟨⟨_, _, _, _, _, _, _, _, _⟩, hrecord, hcapacity, houtNormal, hinNormal, houtElevated,
      hinElevated, hseed, hmaxTicks, htickMicros, hbus⟩

/-- A value is read as a workload if it gives a draft, and then as that draft, completed. -/
theorem ofJson?_eq_some_iff : ofJson? v = some w ↔ ∃ d : Draft, d.Of v ∧ w = d.complete := by
  constructor
  · intro h
    obtain ⟨d, hd⟩ := exists_draft h
    exact ⟨d, hd, Option.some.inj (h.symm.trans hd.ofJson?)⟩
  · rintro ⟨d, hd, rfl⟩
    exact hd.ofJson?

/-- The capacity is that of the workload; the other settings are those of the bus. -/
theorem config_complete (d : Draft) : d.complete.config =
    { capacity := d.capacity.getD standard.capacity
      fairness := (d.bus.bind Config.Draft.fairness).getD Config.standard.fairness
      streakLimit := (d.bus.bind Config.Draft.streakLimit).getD Config.standard.streakLimit
      yieldToOpposite :=
        (d.bus.bind Config.Draft.yieldToOpposite).getD Config.standard.yieldToOpposite } := by
  rw [config, Draft.complete]
  cases d.bus <;> rfl

/-- **A document may leave out any field.**  A text of the grammar that gives a draft, its fields in
any order and among any other members, is read as the workload with the given values on the given
fields and the standard values on all others.  The bus of that workload has the capacity of the
workload, given or standard, whatever the settings of the bus say, and the other settings are
those given for the bus, or standard. -/
theorem read_partial {text : String} (htext : IsJson text v) (hd : d.Of v) :
    Workload.read text = .ok d.complete ∧
      d.complete.config =
        { capacity := d.capacity.getD standard.capacity
          fairness := (d.bus.bind Config.Draft.fairness).getD Config.standard.fairness
          streakLimit := (d.bus.bind Config.Draft.streakLimit).getD Config.standard.streakLimit
          yieldToOpposite :=
            (d.bus.bind Config.Draft.yieldToOpposite).getD Config.standard.yieldToOpposite } := by
  have hread : read? text = some d.complete := by
    rw [read?, htext.read?, Option.bind_some, hd.ofJson?]
  rw [Workload.read, hread]
  exact ⟨rfl, config_complete d⟩

/-- An unknown field with an unpaired half in it, settings that begin with their last field, and the
seed under an escaped key.  The capacity of the settings does not count. -/
theorem read_partial_mixed :
    let text := "\x7b\"x\":[1e9,\"\\ud800\"],\"arbiter\":\x7b\"fairness\":\"oldest-first\"," ++
      "\"capacity\":9\x7d,\n\"\\u0073eed\":7\x7d"
    let v : Value := .object
      [(some "x", .array [.number none, .string none]),
        (some "arbiter",
          .object [(some "fairness", .text "oldest-first"), (some "capacity", .nat 9)]),
        (some "seed", .nat 7)]
    let d : Draft :=
      { seed := some 7, bus := some { capacity := some 9, fairness := some .oldestFirst } }
    IsJson text v ∧ d.Of v ∧ Workload.read text = .ok d.complete ∧
      d.complete.config = { capacity := 3, fairness := .oldestFirst } := by
  intro text v d
  have hfloat : Number.Writes (['1'] ++ ([] ++ ['e', '9'])) none :=
    .unsigned (.digits (by decide) (by simp [Number.Digits])) (.inl rfl)
      (.inr ⟨'e', [], ['9'], .inl rfl, .inl rfl, by simp [Number.Digits], rfl⟩) nofun
  have hhalf : Literal.Body ['\\', 'u', 'd', '8', '0', '0'] [0xD800] :=
    .cons (.number (w := 0xD) (x := 8) (y := 0) (z := 0) (.inl rfl) (.inl rfl) (.inl rfl)
      (.inl rfl)) .nil
  have hkey : Literal.Body ['\\', 'u', '0', '0', '7', '3', 'e', 'e', 'd']
      [0x73, 0x65, 0x65, 0x64] :=
    .cons (.number (w := 0) (x := 0) (y := 7) (z := 3) (.inl rfl) (.inl rfl) (.inl rfl) (.inl rfl))
      (.plain (by decide))
  have hnone : Literal.Writes _ none := ⟨_, _, hhalf, (Literal.denotes_iff hhalf.lt).2 rfl, rfl⟩
  have hseed : Literal.Writes _ (some "seed") :=
    ⟨_, _, hkey, (Literal.denotes_iff hkey.lt).2 (by decide), rfl⟩
  have htext : IsJson text v := by
    have hitems := Derives.elements (.bare (.number hfloat)) (.lastElement (.bare (.string hnone)))
    have hx := Derives.entry (Literal.writes_text "x" (by decide)) (.array hitems)
    have hrule := Derives.entry (Literal.writes_text "fairness" (by decide))
      (.string (Literal.writes_text "oldest-first" (by decide)))
    have hslots := Derives.entry (Literal.writes_text "capacity" (by decide)) (.number (.plain 9))
    have hbus := Derives.entry (Literal.writes_text "arbiter" (by decide))
      (.object (.members hrule (.lastMember hslots)))
    have hblank : Blank ['\n'] := List.forall_mem_singleton.2 (by decide)
    have hlast := Derives.member hblank hseed .nil (.bare (.number (.plain 7)))
    have hobject := Derives.object (.members hx (.members hbus (.lastMember hlast)))
    exact hobject.bare.isJson (by decide)
  have hd : d.Of v := by
    refine ⟨by simp [Value.IsRecord, v], .missing, .missing, .missing, .missing, .missing,
      .once ⟨rfl, by decide⟩, .missing, .missing, .once nofun ?_⟩
    exact ⟨by simp [Value.IsRecord], .once ⟨rfl, by decide⟩, .once (.inl rfl), .missing, .missing⟩
  exact ⟨htext, hd, read_partial htext hd⟩

end Workload

end HalfDuplex

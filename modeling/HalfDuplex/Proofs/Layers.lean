import HalfDuplex.Proofs.BatchRun
import HalfDuplex.Proofs.Drafts
import HalfDuplex.Proofs.Overrides
import HalfDuplex.Simulation

/-!
# The layers of a command's settings

The workload of a command comes from up to four places: the command line, the environment, a file
and the standard values.  Which place decides is said for each setting by itself, so that it is
plain which of the others it does not depend on.

* `Decides` : an option stands above everything else that could settle a value.
* `Options.FileGives` : what the file of a command line gives.
* `Options.Layered` : each setting of a workload comes from the highest place that gives it.
* `Options.load_eq_ok_iff` : the workload of a command line is that of the options over a draft.
* `Batch.kept_play` : neither the bus nor the watch of a batch changes its capacity.
* `Options.load_layered` : the workload of a command line is the one whose settings are layered.
-/

namespace HalfDuplex

open Json

/-! ### Options -/

/-- The option `flag` settles the value `a` if it is given; without it, `a` is settled by `rest`. -/
structure Decides {α : Type} (flag : Option α) (rest : α → Prop) (a : α) : Prop where
  given : ∀ x, flag = some x → a = x
  missing : flag = none → rest a

namespace Decides

variable {α : Type} {flag : Option α} {rest : α → Prop} {a b : α}

theorem of_getD (h : rest a) : Decides flag rest (flag.getD a) where
  given x hx := by rw [hx, Option.getD_some]
  missing hx := by rwa [hx, Option.getD_none]

theorem unique (hrest : ∀ {x y}, rest x → rest y → x = y) (ha : Decides flag rest a)
    (hb : Decides flag rest b) : a = b := by
  cases hflag : flag with
  | none => exact hrest (ha.missing hflag) (hb.missing hflag)
  | some x => rw [ha.given x hflag, hb.given x hflag]

end Decides

namespace Options

open Environment Config

variable {o : Options} {raw : String → Option ByteArray}
  {fileText : String → Except FileFault String} {d : Workload.Draft} {w w' : Workload}

/-- The file of the command line gives the draft `d`.  Without a file nothing is given. -/
def FileGives (o : Options) (fileText : String → Except FileFault String) (d : Workload.Draft) :
    Prop :=
  match o.config with
  | none => d = {}
  | some path => ∃ text v, fileText path = .ok text ∧ Value.read? text = some v ∧ d.Of v

/-- Each setting of the workload `w` comes from the highest place that gives it: from the options
`o`, then, for the settings of the bus, from the environment of a process whose variables hold
`raw`, then from the draft `d` of a file, then from the standard workload. -/
structure Layered (o : Options) (raw : String → Option ByteArray) (d : Workload.Draft)
    (w : Workload) : Prop where
  outboundNormal : Decides o.outboundNormal
    (· = d.outboundNormal.getD Workload.standard.outboundNormal) w.outboundNormal
  inboundNormal : Decides o.inboundNormal
    (· = d.inboundNormal.getD Workload.standard.inboundNormal) w.inboundNormal
  outboundElevated : Decides o.outboundElevated
    (· = d.outboundElevated.getD Workload.standard.outboundElevated) w.outboundElevated
  inboundElevated : Decides o.inboundElevated
    (· = d.inboundElevated.getD Workload.standard.inboundElevated) w.inboundElevated
  seed : Decides o.seed (· = d.seed.getD Workload.standard.seed) w.seed
  maxTicks : Decides o.maxTicks (· = d.maxTicks.getD Workload.standard.maxTicks) w.maxTicks
  tickMicros : Decides o.tickMicros
    (· = d.tickMicros.getD Workload.standard.tickMicros) w.tickMicros
  capacity : Decides o.capacity
    (Settles CapacityText (raw capacityKey) (d.capacity.getD Workload.standard.capacity)) w.capacity
  fairness : Decides o.fairness
    (Settles FairnessText (raw fairnessKey)
      ((d.bus.bind Draft.fairness).getD standard.fairness)) w.config.fairness
  /-- No option speaks for the streak limit. -/
  streakLimit : Settles StreakLimitText (raw streakLimitKey)
    ((d.bus.bind Draft.streakLimit).getD standard.streakLimit) w.config.streakLimit
  /-- The option is a flag: it can only say yes. -/
  yieldToOpposite : Decides (if o.yieldToOpposite then some true else none)
    (Settles SwitchText (raw yieldToOppositeKey)
      ((d.bus.bind Draft.yieldToOpposite).getD standard.yieldToOpposite)) w.config.yieldToOpposite
  /-- The settings of the bus are written out, with the capacity that counts. -/
  bus : w.bus = some w.config

/-- Nothing of a layered workload is left open. -/
theorem Layered.unique (h : o.Layered raw d w) (h' : o.Layered raw d w') : w = w' := by
  have hsame : ∀ {c x y : Nat}, x = c → y = c → x = y := fun hx hy => hx.trans hy.symm
  have hcapacity := h.capacity.unique Settles.unique h'.capacity
  have hconfig : w.config = w'.config := by
    have heta : ∀ w : Workload, w.config =
        ⟨w.capacity, w.config.fairness, w.config.streakLimit, w.config.yieldToOpposite⟩ :=
      fun _ => rfl
    rw [heta w, heta w', hcapacity, h.fairness.unique Settles.unique h'.fairness,
      h.streakLimit.unique h'.streakLimit,
      h.yieldToOpposite.unique Settles.unique h'.yieldToOpposite]
  have hbus : w.bus = w'.bus := by rw [h.bus, h'.bus, hconfig]
  cases w
  cases w'
  rw [Workload.mk.injEq]
  exact ⟨hcapacity, h.outboundNormal.unique hsame h'.outboundNormal,
    h.inboundNormal.unique hsame h'.inboundNormal,
    h.outboundElevated.unique hsame h'.outboundElevated,
    h.inboundElevated.unique hsame h'.inboundElevated, h.seed.unique hsame h'.seed,
    h.maxTicks.unique hsame h'.maxTicks, h.tickMicros.unique hsame h'.tickMicros, hbus⟩

/-- The workload of the options over a draft is layered. -/
theorem layered_workload (o : Options) (raw : String → Option ByteArray) (d : Workload.Draft) :
    o.Layered raw d (o.workload d.complete (.ofBytes raw)) := by
  have hover := overridden_override raw d.complete.config
  have hfile := Workload.config_complete d
  have hfairness : d.complete.config.fairness =
      (d.bus.bind Draft.fairness).getD standard.fairness := by rw [hfile]
  have hlimit : d.complete.config.streakLimit =
      (d.bus.bind Draft.streakLimit).getD standard.streakLimit := by rw [hfile]
  have hyield : d.complete.config.yieldToOpposite =
      (d.bus.bind Draft.yieldToOpposite).getD standard.yieldToOpposite := by rw [hfile]
  constructor
  case outboundNormal | inboundNormal | outboundElevated | inboundElevated | seed | maxTicks
    | tickMicros => exact .of_getD rfl
  case capacity => exact .of_getD hover.capacity
  case fairness => exact hfairness ▸ .of_getD hover.fairness
  case streakLimit => exact hlimit ▸ hover.streakLimit
  case yieldToOpposite =>
    have heq : (o.workload d.complete (.ofBytes raw)).config.yieldToOpposite =
        (if o.yieldToOpposite then some true else none).getD
          (d.complete.config.override (.ofBytes raw)).yieldToOpposite := by
      cases hflag : o.yieldToOpposite <;> simp [workload, bus, Workload.config, hflag]
    rw [heq, ← hyield]
    exact .of_getD hover.yieldToOpposite
  case bus => rfl

theorem load_file_iff {path : String} {read : Except FileFault String} :
    Workload.load path read = .ok w ↔ ∃ text v, read = .ok text ∧ Value.read? text = some v ∧
      ∃ d : Workload.Draft, d.Of v ∧ w = d.complete := by
  cases read with
  | error cause => simp [Workload.load]
  | ok text =>
    have hread : Workload.read text = .ok w ↔ Workload.read? text = some w := by
      rw [Workload.read]
      cases Workload.read? text <;> simp
    rw [Workload.load, hread, Workload.read?, Option.bind_eq_some_iff]
    simp [Workload.ofJson?_eq_some_iff]

/-- The workload of a command line is that of its options over what its file gives. -/
theorem load_eq_ok_iff {env : Environment} : o.load env fileText = .ok w ↔
    ∃ d, o.FileGives fileText d ∧ w = o.workload d.complete env := by
  cases hpath : o.config with
  | none =>
    simp only [load, FileGives, hpath, Except.ok.injEq, exists_eq_left]
    exact eq_comm
  | some path =>
    have hload : o.load env fileText = .ok w ↔
        ∃ file, Workload.load path (fileText path) = .ok file ∧ w = o.workload file env := by
      simp only [load, hpath]
      cases Workload.load path (fileText path) <;> simp [eq_comm]
    simp only [hload, load_file_iff, FileGives, hpath]
    constructor
    · rintro ⟨_, ⟨text, v, htext, hv, d, hd, rfl⟩, rfl⟩
      exact ⟨d, ⟨text, v, htext, hv, hd⟩, rfl⟩
    · rintro ⟨d, ⟨text, v, htext, hv, hd⟩, rfl⟩
      exact ⟨_, ⟨text, v, htext, hv, d, hd, rfl⟩, rfl⟩

theorem layered_nested (n : Option Nat) :
    o.Layered raw { d with bus := d.bus.map fun c => { c with capacity := n } } w ↔
      o.Layered raw d w := by
  obtain ⟨_, _, _, _, _, _, _, _, _ | c⟩ := d
  · exact Iff.rfl
  · constructor <;> exact fun ⟨h₁, h₂, h₃, h₄, h₅, h₆, h₇, h₈, h₉, h₁₀, h₁₁, h₁₂⟩ =>
      ⟨h₁, h₂, h₃, h₄, h₅, h₆, h₇, h₈, h₉, h₁₀, h₁₁, h₁₂⟩

end Options

/-! ### The run -/

namespace Batch

variable {b b' : Batch} {w : Workload}

theorem kept_step {i time : Nat} (hs : b.step? i time = some b') :
    b'.bus.config = b.bus.config ∧ b'.watch.capacity = b.watch.capacity := by
  cases hi : b.members[i]? with
  | none =>
    simp only [step?, hi] at hs
    cases hs
  | some m =>
    have hturn := turn_step? hi hs
    refine ⟨hturn.config, ?_⟩
    cases hturn <;> rfl

theorem kept_play (b : Batch) (schedule : List (Nat × Nat)) :
    (b.play schedule).bus.config = b.bus.config ∧
      (b.play schedule).watch.capacity = b.watch.capacity :=
  play_induct (P := fun s => s.bus.config = b.bus.config ∧ s.watch.capacity = b.watch.capacity)
    (fun _ _ _ _ h hs => ⟨(kept_step hs).1.trans h.1, (kept_step hs).2.trans h.2⟩) ⟨rfl, rfl⟩
    schedule

theorem start_eq_initial (h : start w = .ok b) : b = initial w := by
  unfold start Bus.build at h
  split at h
  case h_1 => cases h
  case h_2 hbus =>
    split_ifs at hbus
    cases hbus
    split at h
    case h_1 => cases h
    case h_2 hplan =>
      cases h
      rw [plan_eq_taskList hplan]
      rfl

end Batch

namespace Options

open Environment

/-- **Each setting comes from the highest place that gives it.**  A command line has a workload if
its file gives a draft, or if it names no file, and it is the workload whose settings are layered
over that draft.  A capacity among the settings of the bus in the file plays no part in this.  The
settings of the bus stand in the workload, with the capacity of the workload, so that at any time
of a run the bus has these settings and the watch has the same capacity. -/
theorem load_layered (o : Options) (raw : String → Option ByteArray)
    (fileText : String → Except FileFault String) :
    (∀ d, o.FileGives fileText d →
        ∃ w, o.load (.ofBytes raw) fileText = .ok w ∧ o.Layered raw d w) ∧
      (∀ w, o.load (.ofBytes raw) fileText = .ok w ↔
        ∃ d, o.FileGives fileText d ∧ o.Layered raw d w) ∧
      (∀ d n w, o.Layered raw { d with bus := d.bus.map fun c => { c with capacity := n } } w ↔
        o.Layered raw d w) ∧
      ∀ w, o.load (.ofBytes raw) fileText = .ok w →
        w.bus = some w.config ∧ w.config.capacity = w.capacity ∧
          ∀ b, Batch.start w = .ok b → ∀ schedule,
            (b.play schedule).bus.config = w.config ∧
              (b.play schedule).watch.capacity = (b.play schedule).bus.config.capacity := by
  refine ⟨fun d hd => ⟨_, load_eq_ok_iff.2 ⟨d, hd, rfl⟩, layered_workload o raw d⟩,
    fun w => ⟨?_, ?_⟩, fun d n w => layered_nested n, fun w hw => ?_⟩
  · intro hw
    obtain ⟨d, hd, rfl⟩ := load_eq_ok_iff.1 hw
    exact ⟨d, hd, layered_workload o raw d⟩
  · rintro ⟨d, hd, hw⟩
    exact load_eq_ok_iff.2 ⟨d, hd, hw.unique (layered_workload o raw d)⟩
  · obtain ⟨d, -, rfl⟩ := load_eq_ok_iff.1 hw
    refine ⟨rfl, rfl, fun b hb schedule => ?_⟩
    obtain ⟨hconfig, hcapacity⟩ := Batch.kept_play b schedule
    rw [hconfig, hcapacity, Batch.start_eq_initial hb]
    exact ⟨rfl, rfl⟩

/-- The environment chooses the rule over the file, but a bus without slots is not accepted from it;
the capacity among the settings of the bus does not count. -/
theorem load_layered_mixed :
    let o : Options := { outboundNormal := some 2, maxTicks := some 0, config := some "batch.json" }
    let raw : String → Option ByteArray := fun key =>
      if key = capacityKey then some "0".toUTF8
      else if key = fairnessKey then some " Alternate".toUTF8
      else none
    let file :=
      "\x7b\"capacity\":5,\"outbound_normal\":1,\"seed\":7,\"arbiter\":\x7b\"capacity\":9," ++
        "\"fairness\":\"oldest-first\",\"elevated_streak_limit\":4\x7d\x7d"
    ∃ w, o.load (.ofBytes raw) (fun _ => .ok file) = .ok w ∧ w.outboundNormal = 2 ∧ w.seed = 7 ∧
      w.maxTicks = 0 ∧ w.capacity = 5 ∧ w.config.fairness = .alternate ∧
      w.config.streakLimit = 4 ∧ w.config.yieldToOpposite = false ∧ w.bus = some w.config ∧
      ∃ b, Batch.start w = .ok b ∧
        let s := b.play [(0, 0), (1, 0)]
        s.watch.capacity = s.bus.config.capacity := by
  intro o raw file
  let v : Value := .object
    [(some "capacity", .nat 5), (some "outbound_normal", .nat 1), (some "seed", .nat 7),
      (some "arbiter", .object
        [(some "capacity", .nat 9), (some "fairness", .text "oldest-first"),
          (some "elevated_streak_limit", .nat 4)])]
  let d : Workload.Draft :=
    { capacity := some 5, outboundNormal := some 1, seed := some 7,
      bus := some { capacity := some 9, fairness := some .oldestFirst, streakLimit := some 4 } }
  have hd : o.FileGives (fun _ => .ok file) d := by
    have hwritten : v.write = file := by decide +kernel
    refine ⟨_, v, rfl, hwritten ▸ Value.read?_write v, ?_⟩
    refine ⟨by simp [Value.IsRecord, v], .once ⟨rfl, by decide⟩, .once ⟨rfl, by decide⟩, .missing,
      .missing, .missing, .once ⟨rfl, by decide⟩, .missing, .missing, .once (by simp) ?_⟩
    exact ⟨by simp [Value.IsRecord], .once ⟨rfl, by decide⟩, .once (.inl rfl),
      .once ⟨rfl, by decide⟩, .missing⟩
  obtain ⟨hsome, -, -, hrun⟩ := load_layered o raw fun _ => .ok file
  obtain ⟨w, hw, h⟩ := hsome d hd
  obtain ⟨hbus, -, hsame⟩ := hrun w hw
  have hcapacity : w.capacity = 5 := by
    refine (h.capacity.missing rfl).kept fun s n hs hn => ?_
    obtain rfl : s = "0" := (String.toByteArray_inj.1 (Option.some.inj hs)).symm
    have hnone : readCapacity? "0" = none := rfl
    rw [← readCapacity?_eq_some_iff, hnone] at hn
    cases hn
  have hrule : w.config.fairness = .alternate :=
    (h.fairness.missing rfl).set " Alternate" _ rfl (fairnessRead_eq_some_iff.1 rfl)
  have hlimit : w.config.streakLimit = 4 := h.streakLimit.kept fun _ _ hs => by cases hs
  have hyield : w.config.yieldToOpposite = false :=
    (h.yieldToOpposite.missing rfl).kept fun _ _ hs => by cases hs
  have hcount : w.taskCount = .ok 2 := by
    rw [Workload.taskCount, Workload.batches, h.outboundNormal.given 2 rfl,
      h.inboundNormal.missing rfl, h.outboundElevated.missing rfl, h.inboundElevated.missing rfl]
    rfl
  have hstart : Batch.start w = .ok (.initial w) := by
    rw [Batch.start_eq (by omega), Batch.plan_eq hcount]
    rfl
  exact ⟨w, hw, h.outboundNormal.given 2 rfl, h.seed.missing rfl, h.maxTicks.given 0 rfl,
    hcapacity, hrule, hlimit, hyield, hbus, _, hstart, (hsame _ hstart _).2⟩

end Options

end HalfDuplex

import HalfDuplex.Config.Environment
import HalfDuplex.Proofs.Reading

/-!
# What the environment replaces

Each variable speaks for one setting: what it denotes replaces that setting, and a variable that
denotes nothing leaves it alone.  What a text denotes is said here without the functions that read
it, so that no reader can be wrong about what it accepts.

* `Environment.CapacityText`, `FairnessText`, `StreakLimitText`, `SwitchText` : what a text denotes
  as the value of each variable, and the readers decide it.
* `Settles` : what a variable does to its setting.
* `Config.Overridden` : what an environment does to the settings, each by its own variable.
* `Config.override_exact` : `Config.override` does that and nothing else.
-/

namespace HalfDuplex

namespace Environment

/-! ### Counts -/

/-- `s` is a numeral of `n`, with blanks around it. -/
def CountText (s : String) (n : Nat) : Prop := ∃ t, Text.Trims s t ∧ Numeral.Writes t n

/-- `s` denotes `n` slots: a positive 64-bit word. -/
def CapacityText (s : String) (n : Nat) : Prop := CountText s n ∧ 1 ≤ n ∧ n < Word.count64

/-- `s` denotes the streak limit `n`: a 32-bit word. -/
def StreakLimitText (s : String) (n : Nat) : Prop := CountText s n ∧ n < Word.count32

theorem read_trim_eq_ok_iff {limit n : Nat} {s : String} :
    Numeral.read limit (Text.trim s) = .ok n ↔ CountText s n ∧ n ≤ limit := by
  rw [Numeral.read_eq_ok_iff]
  refine and_congr_left fun _ => ⟨fun h => ⟨_, Text.trims_trim s, h⟩, ?_⟩
  rintro ⟨t, ht, hwrites⟩
  rwa [ht.trim_eq]

theorem toOption_eq_some_iff {ε α : Type} {x : Except ε α} {a : α} :
    x.toOption = some a ↔ x = .ok a := by
  cases x <;> simp [Except.toOption]

theorem readStreakLimit_eq_some_iff {s : String} {n : Nat} :
    (readStreakLimit s).toOption = some n ↔ StreakLimitText s n := by
  rw [toOption_eq_some_iff, readStreakLimit, read_trim_eq_ok_iff]
  exact and_congr_right fun _ => Nat.le_sub_one_iff_lt (show 0 < Word.count32 by decide)

theorem readCapacity?_eq_some_iff {s : String} {n : Nat} :
    readCapacity? s = some n ↔ CapacityText s n := by
  have hcount : CapacityText s n ↔ Numeral.read Word.max64 (Text.trim s) = .ok n ∧ 1 ≤ n := by
    rw [read_trim_eq_ok_iff, CapacityText, and_assoc, and_comm (a := 1 ≤ n)]
    exact and_congr_right fun _ => and_congr_left fun _ =>
      (Nat.le_sub_one_iff_lt (show 0 < Word.count64 by decide)).symm
  rw [hcount, readCapacity?, Numeral.read?]
  cases Numeral.read Word.max64 (Text.trim s) with
  | error fault => simp [Except.toOption]
  | ok m =>
    cases m with
    | zero =>
      simp only [Except.toOption, reduceCtorEq, Except.ok.injEq, false_iff]
      omega
    | succ m =>
      simp only [Except.toOption, Option.some.injEq, Except.ok.injEq]
      omega

/-! ### Words -/

/-- `s` is one of `words` up to the case of the letters A to Z, with blanks around it. -/
def WordText (words : List String) (s : String) : Prop :=
  ∃ t, Text.Trims s t ∧ ∃ word ∈ words, Text.Cased t word

/-- The words for a rule. -/
def ruleWords : Fairness → List String
  | .alternate => ["alternate"]
  | .oldestFirst => ["oldest-first", "oldest_first"]

/-- `s` denotes a rule. -/
def FairnessText (s : String) (rule : Fairness) : Prop := WordText (ruleWords rule) s

/-- The words for a truth value. -/
def switchWords : Bool → List String
  | true => ["1", "true", "yes", "on"]
  | false => ["0", "false", "no", "off"]

/-- `s` denotes a truth value. -/
def SwitchText (s : String) (b : Bool) : Prop := WordText (switchWords b) s

theorem wordText_iff {words : List String} {s : String}
    (hwords : ∀ word ∈ words, ∀ d ∈ word.toList, ¬ Text.IsCapital d) :
    WordText words s ↔ Text.asciiLower (Text.trim s) ∈ words := by
  constructor
  · rintro ⟨t, ht, word, hword, hcased⟩
    rw [ht.trim_eq, (Text.asciiLower_eq_iff (hwords word hword)).2 hcased]
    exact hword
  · intro hmem
    exact ⟨_, Text.trims_trim s, _, hmem, (Text.asciiLower_eq_iff (hwords _ hmem)).1 rfl⟩

theorem ruleWords_lower (rule : Fairness) :
    ∀ word ∈ ruleWords rule, ∀ d ∈ word.toList, ¬ Text.IsCapital d := by
  cases rule <;> simp [ruleWords, Text.IsCapital]

theorem switchWords_lower (b : Bool) :
    ∀ word ∈ switchWords b, ∀ d ∈ word.toList, ¬ Text.IsCapital d := by
  cases b <;> simp [switchWords, Text.IsCapital]

theorem fairnessRead_eq_some_iff {s : String} {rule : Fairness} :
    (Fairness.read s).toOption = some rule ↔ FairnessText s rule := by
  rw [toOption_eq_some_iff, FairnessText, wordText_iff (ruleWords_lower rule), Fairness.read]
  generalize Text.asciiLower (Text.trim s) = word
  by_cases halternate : word = "alternate"
  · cases rule <;> simp [ruleWords, halternate]
  · by_cases holdest : word = "oldest-first" ∨ word = "oldest_first"
    · cases rule <;> simp [ruleWords, halternate, holdest]
    · cases rule <;> simp [ruleWords, halternate, holdest]

theorem notMem_noWords : ∀ word ∈ yesWords, word ∉ noWords := by
  decide

theorem readSwitch?_eq_some_iff {s : String} {b : Bool} :
    readSwitch? s = some b ↔ SwitchText s b := by
  rw [SwitchText, wordText_iff (switchWords_lower b), readSwitch?]
  generalize Text.asciiLower (Text.trim s) = word
  change _ ↔ word ∈ bif b then yesWords else noWords
  by_cases hyes : word ∈ yesWords
  · have hno := notMem_noWords word hyes
    cases b <;> simp [hyes, hno]
  · cases b <;> simp [hyes]

end Environment

/-! ### One variable and its setting -/

/-- What a variable that holds `var` does to its setting: the value that its text denotes takes the
place of `old`; a variable that is not set, that holds no text, or whose text denotes nothing leaves
`old` alone. -/
structure Settles {α : Type} (denotes : String → α → Prop) (var : Option ByteArray)
    (old new : α) : Prop where
  /-- What the text denotes is the setting now. -/
  set : ∀ s a, var = some s.toUTF8 → denotes s a → new = a
  /-- Without a text that denotes something the setting is what it was. -/
  kept : (∀ s a, var = some s.toUTF8 → ¬ denotes s a) → new = old

namespace Settles

variable {α : Type} {denotes : String → α → Prop} {var : Option ByteArray} {old new new' : α}

theorem unique (h : Settles denotes var old new) (h' : Settles denotes var old new') :
    new = new' := by
  by_cases hvar : ∃ s a, var = some s.toUTF8 ∧ denotes s a
  · obtain ⟨s, a, hs, ha⟩ := hvar
    rw [h.set s a hs ha, h'.set s a hs ha]
  · have hnone : ∀ s a, var = some s.toUTF8 → ¬ denotes s a := fun s a hs ha => hvar ⟨s, a, hs, ha⟩
    rw [h.kept hnone, h'.kept hnone]

/-- A reader that decides what texts denote settles by what it reads. -/
theorem of_read {read : String → Option α} (hread : ∀ {s a}, read s = some a ↔ denotes s a)
    (var : Option ByteArray) (old : α) :
    Settles denotes var old (((var.bind String.fromUTF8?).bind read).getD old) where
  set s a hs ha := by
    rw [hs, Option.bind_some, Text.fromUTF8?_eq_some_iff.2 rfl, Option.bind_some, hread.2 ha,
      Option.getD_some]
  kept hnone := by
    cases hvalue : (var.bind String.fromUTF8?).bind read with
    | none => rfl
    | some a =>
      obtain ⟨s, hs, ha⟩ := Option.bind_eq_some_iff.1 hvalue
      obtain ⟨bytes, hbytes, hutf⟩ := Option.bind_eq_some_iff.1 hs
      rw [Text.fromUTF8?_eq_some_iff.1 hutf] at hbytes
      exact absurd (hread.1 ha) (hnone s a hbytes)

end Settles

namespace Config

open Environment

/-! ### All settings -/

/-- `c'` is `c` under the environment of a process whose variables hold `raw`: each setting is
settled by its own variable. -/
structure Overridden (raw : String → Option ByteArray) (c c' : Config) : Prop where
  capacity : Settles CapacityText (raw capacityKey) c.capacity c'.capacity
  fairness : Settles FairnessText (raw fairnessKey) c.fairness c'.fairness
  streakLimit : Settles StreakLimitText (raw streakLimitKey) c.streakLimit c'.streakLimit
  yieldToOpposite :
    Settles SwitchText (raw yieldToOppositeKey) c.yieldToOpposite c'.yieldToOpposite

theorem overridden_override (raw : String → Option ByteArray) (c : Config) :
    Overridden raw c (c.override (.ofBytes raw)) where
  capacity := .of_read readCapacity?_eq_some_iff _ _
  fairness := .of_read fairnessRead_eq_some_iff _ _
  streakLimit := .of_read readStreakLimit_eq_some_iff _ _
  yieldToOpposite := .of_read readSwitch?_eq_some_iff _ _

theorem Overridden.unique {raw : String → Option ByteArray} {c c₁ c₂ : Config}
    (h₁ : Overridden raw c c₁) (h₂ : Overridden raw c c₂) : c₁ = c₂ := by
  cases c₁
  cases c₂
  congr
  · exact h₁.capacity.unique h₂.capacity
  · exact h₁.fairness.unique h₂.fairness
  · exact h₁.streakLimit.unique h₂.streakLimit
  · exact h₁.yieldToOpposite.unique h₂.yieldToOpposite

/-- An environment has nothing left to replace in settings that it has been through. -/
theorem override_override (c : Config) (env : Environment) :
    (c.override env).override env = c.override env := by
  have hkept : ∀ {α : Type} (x : Option α) (a : α), x.getD (x.getD a) = x.getD a := by
    rintro α (_ | _) a <;> rfl
  simp only [override, hkept]

theorem valid_override {c : Config} (env : Environment) (hc : c.valid = true) :
    (c.override env).valid = true := by
  rw [valid, decide_eq_true_iff] at hc ⊢
  rw [override]
  cases hcapacity : env.capacity? with
  | none => exact hc
  | some n =>
    obtain ⟨s, -, hs⟩ := Option.bind_eq_some_iff.1 hcapacity
    obtain ⟨-, hpos, -⟩ := readCapacity?_eq_some_iff.1 hs
    exact Nat.ne_of_gt hpos

/-- **Each setting is settled by its own variable.**  A variable that holds a text acceptable for
its setting, blanks around it and letter case aside, replaces the setting by what the text denotes;
a variable that is not set, or holds something else or no text at all, leaves it alone.  There is
only one configuration of which this can be said, and it is the overridden one.  So no setting
depends on another's variable, to go through the same environment again changes nothing, and a bus
that can be built can still be built. -/
theorem override_exact (c : Config) (raw : String → Option ByteArray) :
    (∀ c', Overridden raw c c' ↔ c' = c.override (.ofBytes raw)) ∧
      (∀ other : String → Option ByteArray,
        (other capacityKey = raw capacityKey →
          (c.override (.ofBytes other)).capacity = (c.override (.ofBytes raw)).capacity) ∧
        (other fairnessKey = raw fairnessKey →
          (c.override (.ofBytes other)).fairness = (c.override (.ofBytes raw)).fairness) ∧
        (other streakLimitKey = raw streakLimitKey →
          (c.override (.ofBytes other)).streakLimit =
            (c.override (.ofBytes raw)).streakLimit) ∧
        (other yieldToOppositeKey = raw yieldToOppositeKey →
          (c.override (.ofBytes other)).yieldToOpposite =
            (c.override (.ofBytes raw)).yieldToOpposite)) ∧
      (c.override (.ofBytes raw)).override (.ofBytes raw) = c.override (.ofBytes raw) ∧
      (c.valid = true → (c.override (.ofBytes raw)).valid = true) := by
  have hraw := overridden_override raw c
  refine ⟨fun c' => ⟨fun h => h.unique hraw, fun h => h ▸ hraw⟩, fun other => ?_,
    override_override c _, valid_override _⟩
  have hother := overridden_override other c
  exact ⟨fun h => (h ▸ hother.capacity).unique hraw.capacity,
    fun h => (h ▸ hother.fairness).unique hraw.fairness,
    fun h => (h ▸ hother.streakLimit).unique hraw.streakLimit,
    fun h => (h ▸ hother.yieldToOpposite).unique hraw.yieldToOpposite⟩

/-- A signed numeral between blanks, a rule in mixed letters before an ideographic blank, a streak
limit of one too many and a byte that is no text.  Two settings are replaced, two are kept. -/
theorem override_exact_mixed :
    let raw : String → Option ByteArray := fun key =>
      if key = capacityKey then some "\t+007 ".toUTF8
      else if key = fairnessKey then some "Oldest_FIRST\u3000".toUTF8
      else if key = streakLimitKey then some "4294967296".toUTF8
      else if key = yieldToOppositeKey then some ⟨#[0xFF]⟩
      else none
    let c := standard.override (.ofBytes raw)
    c.capacity = 7 ∧ c.fairness = .oldestFirst ∧ c.streakLimit = 1 ∧ c.yieldToOpposite = false ∧
      standard.valid = true ∧ c.valid = true := by
  intro raw c
  obtain ⟨hiff, -, -, hvalid⟩ := override_exact standard raw
  have h : Overridden raw standard c := (hiff c).2 rfl
  refine ⟨h.capacity.set "\t+007 " 7 rfl (readCapacity?_eq_some_iff.1 rfl),
    h.fairness.set "Oldest_FIRST\u3000" _ rfl (fairnessRead_eq_some_iff.1 rfl),
    h.streakLimit.kept fun s n hs hn => ?_, h.yieldToOpposite.kept fun s b hs _ => ?_,
    by decide, hvalid (by decide)⟩
  · -- the text is this one, and the reader refuses it
    obtain rfl : s = "4294967296" := (String.toByteArray_inj.1 (Option.some.inj hs)).symm
    exact nomatch readStreakLimit_eq_some_iff.2 hn
  · -- no text has this byte
    exact nomatch Text.fromUTF8?_eq_some_iff.2 (Option.some.inj hs)

end Config

end HalfDuplex

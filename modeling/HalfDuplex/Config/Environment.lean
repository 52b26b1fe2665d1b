import HalfDuplex.Config
import HalfDuplex.Remark
import HalfDuplex.Text.Numeral

/-!
# Settings from the environment

Each of the four settings of a bus has an environment variable.  A variable that is set to an
acceptable text replaces its setting; any other leaves it alone and is reported.

* `Environment.ofBytes` : the texts among the values that the variables of a process hold.
* `Environment.capacity?`, `fairness?`, `streakLimit?`, `yieldToOpposite?` : what each variable
  denotes, if it is set and acceptable.
* `Config.override` : the settings under an environment, one field at a time.
* `Config.overrideRemarks` : what is reported about refused texts, in the order of the fields.
-/

namespace HalfDuplex

/-- The text of each environment variable, if it is set to a text. -/
abbrev Environment := String → Option String

namespace Environment

/-- The environment of a process whose variables hold bytes.  A variable that holds no UTF-8 counts
as one that is not set. -/
def ofBytes (raw : String → Option ByteArray) : Environment :=
  fun key => (raw key).bind String.fromUTF8?

/-- The variable of the number of slots. -/
def capacityKey : String := "BUS_ARBITER_CAPACITY"

/-- The variable of the fairness rule. -/
def fairnessKey : String := "BUS_ARBITER_FAIRNESS"

/-- The variable of the streak limit. -/
def streakLimitKey : String := "BUS_ARBITER_ELEVATED_STREAK_LIMIT"

/-- The variable of the yield setting. -/
def yieldToOppositeKey : String := "BUS_ARBITER_YIELD_TO_OPPOSITE"

/-- The number of slots that a text denotes: a positive 64-bit word. -/
def readCapacity? (s : String) : Option Nat :=
  match Numeral.read? Word.max64 (Text.trim s) with
  | some (n + 1) => some (n + 1)
  | _ => none

/-- The streak limit that a text denotes: a 32-bit word. -/
def readStreakLimit (s : String) : Except NumeralFault Nat :=
  Numeral.read Word.max32 (Text.trim s)

/-- The words for yes. -/
def yesWords : List String := ["1", "true", "yes", "on"]

/-- The words for no. -/
def noWords : List String := ["0", "false", "no", "off"]

/-- The truth value that a text denotes. -/
def readSwitch? (s : String) : Option Bool :=
  let word := Text.asciiLower (Text.trim s)
  if word ∈ yesWords then some true
  else if word ∈ noWords then some false
  else none

variable (env : Environment)

/-- The number of slots that the environment asks for. -/
def capacity? : Option Nat := (env capacityKey).bind readCapacity?

/-- The fairness rule that the environment asks for. -/
def fairness? : Option Fairness := (env fairnessKey).bind fun s => (Fairness.read s).toOption

/-- The streak limit that the environment asks for. -/
def streakLimit? : Option Nat :=
  (env streakLimitKey).bind fun s => (readStreakLimit s).toOption

/-- The yield setting that the environment asks for. -/
def yieldToOpposite? : Option Bool := (env yieldToOppositeKey).bind readSwitch?

end Environment

namespace Config

/-- The settings `c` under an environment. -/
def override (c : Config) (env : Environment) : Config where
  capacity := env.capacity?.getD c.capacity
  fairness := env.fairness?.getD c.fairness
  streakLimit := env.streakLimit?.getD c.streakLimit
  yieldToOpposite := env.yieldToOpposite?.getD c.yieldToOpposite

/-- The remark on a refused text, with the reason where one is known. -/
def refusal (message value : String) (reason : Option String) : Remark :=
  ⟨.warn, message, ("value", value) :: (reason.toList.map ("error", ·))⟩

/-- What is reported about the variables that are set to something unacceptable. -/
def overrideRemarks (env : Environment) : List Remark :=
  let capacity := (env Environment.capacityKey).toList.filterMap fun s =>
    match Environment.readCapacity? s with
    | some _ => none
    | none => some (refusal ("ignoring invalid " ++ Environment.capacityKey) s none)
  let fairness := (env Environment.fairnessKey).toList.filterMap fun s =>
    match Fairness.read s with
    | .ok _ => none
    | .error e => some (refusal ("ignoring " ++ Environment.fairnessKey) s (some e))
  let streakLimit := (env Environment.streakLimitKey).toList.filterMap fun s =>
    match Environment.readStreakLimit s with
    | .ok _ => none
    | .error e => some (refusal ("ignoring " ++ Environment.streakLimitKey) s (some e.message))
  let yieldToOpposite := (env Environment.yieldToOppositeKey).toList.filterMap fun s =>
    match Environment.readSwitch? s with
    | some _ => none
    | none => some (refusal ("ignoring " ++ Environment.yieldToOppositeKey) s none)
  capacity ++ fairness ++ streakLimit ++ yieldToOpposite

end Config

end HalfDuplex

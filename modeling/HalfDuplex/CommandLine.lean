import HalfDuplex.Config.Environment
import HalfDuplex.Workload

/-!
# The command line

A command line is a row of options.  Most take a value, glued to them by an equals sign or as the
next argument; two are flags.  Each may be given once, in any order, and there are no other
arguments.

* `Options.parse` reads a command line or finds fault with it.  A value that stands apart is only
  looked at when the next known option comes, or the end; an argument that is no option at all
  is found fault with at once.
* `Options.workload` : the workload that the options ask for.  Counts, seed and times come from
  the options, then from the file; the settings of the bus come from the options, then from the
  environment, then from the file.
-/

namespace HalfDuplex

/-- What is wrong with a command line; asking for help counts too. -/
inductive UsageFault where
  | displayHelp
  /-- There is no such option. -/
  | unknownArgument
  /-- A value is missing, or is none of the possible words. -/
  | invalidValue
  /-- A value is no number. -/
  | valueValidation
  /-- An option is given twice. -/
  | argumentConflict
  /-- A flag is given a value. -/
  | tooManyValues
  deriving DecidableEq, Repr

/-- The options. -/
inductive OptionName where
  | outboundNormal
  | inboundNormal
  | outboundElevated
  | inboundElevated
  | capacity
  | seed
  | maxTicks
  | tickMicros
  | fairness
  | config
  | yieldToOpposite
  | json
  | help
  deriving DecidableEq, Repr

namespace OptionName

/-- All options. -/
def all : List OptionName :=
  [outboundNormal, inboundNormal, outboundElevated, inboundElevated, capacity, seed, maxTicks,
    tickMicros, fairness, yieldToOpposite, config, json, help]

/-- The word of an option, without the dashes before it. -/
def word : OptionName → String
  | outboundNormal => "outbound-normal"
  | inboundNormal => "inbound-normal"
  | outboundElevated => "outbound-elevated"
  | inboundElevated => "inbound-elevated"
  | capacity => "capacity"
  | seed => "seed"
  | maxTicks => "max-ticks"
  | tickMicros => "tick-micros"
  | fairness => "fairness"
  | config => "config"
  | yieldToOpposite => "yield-to-opposite"
  | json => "json"
  | help => "help"

/-- The option of a word. -/
def ofWord? (s : String) : Option OptionName := all.find? fun n => n.word = s

/-- The option takes no value. -/
def isFlag : OptionName → Bool
  | yieldToOpposite => true
  | json => true
  | help => true
  | _ => false

end OptionName

/-- What a command line asks for. -/
structure Options where
  outboundNormal : Option Nat := none
  inboundNormal : Option Nat := none
  outboundElevated : Option Nat := none
  inboundElevated : Option Nat := none
  capacity : Option Nat := none
  seed : Option Nat := none
  maxTicks : Option Nat := none
  tickMicros : Option Nat := none
  fairness : Option Fairness := none
  yieldToOpposite : Bool := false
  /-- The path of a file with a workload. -/
  config : Option String := none
  /-- Write the report as a document. -/
  json : Bool := false
  deriving DecidableEq, Repr

/-- One argument, taken by itself. -/
inductive Argument where
  /-- The two dashes that end all options. -/
  | finish
  /-- A word behind two dashes, perhaps with a value glued to it. -/
  | long (word : String) (value : Option String)
  /-- Letters behind one dash. -/
  | short (first : Char)
  /-- Anything else. -/
  | plain (text : String)
  deriving DecidableEq, Repr

namespace Argument

/-- Takes an argument apart. -/
def ofText (s : String) : Argument :=
  match s.toList with
  | ['-', '-'] => finish
  | '-' :: '-' :: rest =>
    let word := String.ofList (rest.takeWhile (· ≠ '='))
    match rest.dropWhile (· ≠ '=') with
    | _ :: value => long word (some (String.ofList value))
    | [] => long word none
  | '-' :: first :: _ => short first
  | _ => plain s

end Argument

namespace Options

/-- A number on the command line: a 64-bit word. -/
def number (s : String) : Except UsageFault Nat :=
  match Numeral.read? Word.max64 s with
  | some n => .ok n
  | none => .error .valueValidation

/-- The options with the value `s` for option `n`. -/
def assign (o : Options) (n : OptionName) (s : String) : Except UsageFault Options :=
  match n with
  | .outboundNormal => (number s).map fun x => { o with outboundNormal := some x }
  | .inboundNormal => (number s).map fun x => { o with inboundNormal := some x }
  | .outboundElevated => (number s).map fun x => { o with outboundElevated := some x }
  | .inboundElevated => (number s).map fun x => { o with inboundElevated := some x }
  | .capacity => (number s).map fun x => { o with capacity := some x }
  | .seed => (number s).map fun x => { o with seed := some x }
  | .maxTicks => (number s).map fun x => { o with maxTicks := some x }
  | .tickMicros => (number s).map fun x => { o with tickMicros := some x }
  | .fairness =>
    match Fairness.ofName? s with
    | some f => .ok { o with fairness := some f }
    | none => .error .invalidValue
  | .config => if s = "" then .error .invalidValue else .ok { o with config := some s }
  | .yieldToOpposite => .ok { o with yieldToOpposite := true }
  | .json => .ok { o with json := true }
  | .help => .error .displayHelp

/-- A command line of which some arguments were read. -/
structure Progress where
  options : Options := {}
  /-- The options that were given a value. -/
  given : List OptionName := []
  /-- The option that came last and whose value stands apart, with the value once it is there. -/
  pending : Option (OptionName × Option String) := none
  /-- The end of all options was seen. -/
  finished : Bool := false
  deriving DecidableEq, Repr

namespace Progress

/-- Option `n` is given the value `s`. -/
def give (p : Progress) (n : OptionName) (s : String) : Except UsageFault Progress :=
  if n ∈ p.given then .error .argumentConflict
  else
    (p.options.assign n s).map fun options =>
      { p with options := options, given := n :: p.given }

/-- The pending option gets its value. -/
def settle (p : Progress) : Except UsageFault Progress :=
  match p.pending with
  | none => .ok p
  | some (_, none) => .error .invalidValue
  | some (n, some s) => { p with pending := none }.give n s

/-- A known option, perhaps with a value glued to it. -/
def meet (p : Progress) (n : OptionName) (value : Option String) :
    Except UsageFault Progress :=
  match n.isFlag, value with
  | true, some _ => .error .tooManyValues
  | true, none => p.settle.bind fun p => p.give n ""
  | false, some s => p.settle.bind fun p => p.give n s
  | false, none => p.settle.map fun p => { p with pending := some (n, none) }

/-- One more argument. -/
def read (p : Progress) (s : String) : Except UsageFault Progress :=
  if p.finished then .error .unknownArgument
  else
    match Argument.ofText s with
    | .finish => .ok { p with finished := true }
    | .long word value =>
      match OptionName.ofWord? word with
      | some n => p.meet n value
      | none => .error .unknownArgument
    | .short first =>
      if first = 'h' then p.meet .help none else .error .unknownArgument
    | .plain text =>
      match p.pending with
      | some (n, none) => .ok { p with pending := some (n, some text) }
      | _ => .error .unknownArgument

end Progress

/-- The options of a command line. -/
def parse (args : List String) : Except UsageFault Options :=
  ((args.foldlM Progress.read {}).bind Progress.settle).map Progress.options

variable (o : Options)

/-- The settings of the bus that the options ask for, over those of a file and of the
environment. -/
def bus (file : Workload) (env : Environment) : Config :=
  let c := file.config.override env
  { c with
    capacity := o.capacity.getD c.capacity
    fairness := o.fairness.getD c.fairness
    yieldToOpposite := o.yieldToOpposite || c.yieldToOpposite }

/-- The workload that the options ask for, over that of a file and the environment. -/
def workload (file : Workload) (env : Environment) : Workload where
  capacity := (o.bus file env).capacity
  outboundNormal := o.outboundNormal.getD file.outboundNormal
  inboundNormal := o.inboundNormal.getD file.inboundNormal
  outboundElevated := o.outboundElevated.getD file.outboundElevated
  inboundElevated := o.inboundElevated.getD file.inboundElevated
  seed := o.seed.getD file.seed
  maxTicks := o.maxTicks.getD file.maxTicks
  tickMicros := o.tickMicros.getD file.tickMicros
  bus := some (o.bus file env)

end Options

end HalfDuplex

import HalfDuplex.Batch.Clock
import HalfDuplex.CommandLine
import HalfDuplex.Report.Document
import HalfDuplex.Workload.Document

/-!
# The simulation as a command

The whole command as a function of its arguments, the environment and the files it may read:
what it prints, and the number it ends with.

* `Options.load` : the workload of a command line, its file included.
* `Simulation.run` : reads the command line, runs the workload and prints the report.
* `Simulation.complaint` : an error with its causes, one to a line.
-/

namespace HalfDuplex

namespace Options

/-- Why the workload of a command line is not there. -/
structure ConfigFault where
  path : String
  cause : LoadFault
  deriving DecidableEq, Repr

namespace ConfigFault

/-- The wording of the fault. -/
def message (f : ConfigFault) : String := s!"loading workload from {f.path}"

end ConfigFault

/-- The workload of a command line.  `fileText` gives the text of a file. -/
def load (o : Options) (env : Environment) (fileText : String → Except FileFault String) :
    Except ConfigFault Workload :=
  match o.config with
  | none => .ok (o.workload .standard env)
  | some path =>
    match Workload.load path (fileText path) with
    | .ok file => .ok (o.workload file env)
    | .error cause => .error ⟨path, cause⟩

end Options

namespace Simulation

/-- What a command leaves behind. -/
structure Outcome where
  exit : Nat
  /-- The lines of its output. -/
  output : List String := []
  /-- The lines of its complaint. -/
  complaint : List String := []
  deriving DecidableEq, Repr

/-- The words for an option in the text of help. -/
def optionHelp (n : OptionName) : String :=
  if n.isFlag then s!"  --{n.word}" else s!"  --{n.word} VALUE"

/-- The text of help. -/
def help : List String := "Usage: bus-sim [OPTIONS]" :: "Options:" :: OptionName.all.map optionHelp

/-- What is said about a faulty command line. -/
def usage : UsageFault → String
  | .displayHelp => ""
  | .unknownArgument => "error: unexpected argument"
  | .invalidValue => "error: invalid or missing value"
  | .valueValidation => "error: value is no number"
  | .argumentConflict => "error: argument given twice"
  | .tooManyValues => "error: unexpected value"

/-- The lines of a text, each after the first with `margin` before it. -/
def hanging (margin : String) (s : String) : List String :=
  match s.splitOn "\n" with
  | [] => []
  | line :: rest => line :: rest.map (margin ++ ·)

/-- One cause under a heading: the first line begins with `head`, the others with blanks. -/
def causeLines (head : String) (s : String) : List String :=
  match hanging (String.ofList (head.toList.map fun _ => ' ')) s with
  | [] => []
  | line :: rest => (head ++ line) :: rest

/-- The causes numbered from `i`. -/
def numbered (i : Nat) : List String → List String
  | [] => []
  | s :: rest =>
    let label := toString i
    let padding := String.ofList (List.replicate (5 - label.length) ' ')
    causeLines (padding ++ label ++ ": ") s ++ numbered (i + 1) rest

/-- The lines that report an error and its causes.  Several causes are numbered. -/
def complaint (error : String) (causes : List String) : List String :=
  let heading := ("Error: " ++ error).splitOn "\n"
  match causes with
  | [] => heading
  | [cause] => heading ++ ["", "Caused by:"] ++ causeLines "    " cause
  | causes => heading ++ ["", "Caused by:"] ++ numbered 0 causes

/-- The output about a report, and the complaint if it is not clean. -/
def conclude (json : Bool) (r : Report) : Outcome :=
  let output := if json then r.toJson.writeLines.splitOn "\n" else r.summary
  match r.isClean, r.violations with
  | .ok true, _ => { exit := 0, output := output }
  | .ok false, .ok n =>
    { exit := 1
      output := output
      complaint := complaint s!"run finished with {n} monitor violations" [] }
  | .error overflow, _ => { exit := 101, output := output, complaint := [overflow.message] }
  | _, .error overflow => { exit := 101, output := output, complaint := [overflow.message] }

/-- Runs a workload and prints the report. -/
def runWorkload (json : Bool) (w : Workload) : Outcome :=
  match w.taskCount with
  | .error overflow => { exit := 101, complaint := [overflow.message] }
  | .ok _ =>
    match w.simulate w.transfer with
    | .ok r => conclude json r
    | .error (.tooManyTasks overflow) => { exit := 101, complaint := [overflow.message] }
    | .error fault => { exit := 1, complaint := complaint "batch run failed" [fault.message] }

/-- Runs the command. -/
def run (args : List String) (env : Environment)
    (fileText : String → Except FileFault String) : Outcome :=
  match Options.parse args with
  | .error .displayHelp => { exit := 0, output := help }
  | .error fault => { exit := 2, complaint := [usage fault] }
  | .ok o =>
    match o.load env fileText with
    | .error fault => { exit := 1, complaint := complaint fault.message fault.cause.messages }
    | .ok w => runWorkload o.json w

end Simulation

end HalfDuplex

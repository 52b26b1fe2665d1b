import HalfDuplex.Fault
import HalfDuplex.Workload

/-!
# Faults of a batch

What can go wrong before and while a workload runs: its file cannot be read or understood
(`LoadFault`), or the run itself fails (`RunFault`), be it at the bus or at a task of the host.

* `LoadFault.messages` and `RunFault.message` are the wordings.
-/

namespace HalfDuplex

/-- Why the text of a file is not there. -/
inductive FileFault where
  | notFound
  /-- The bytes spell no text. -/
  | notText
  /-- Any other trouble, as it is reported. -/
  | other (message : String)
  deriving DecidableEq, Repr

namespace FileFault

/-- The wording of the fault. -/
def message : FileFault → String
  | notFound => "No such file or directory (os error 2)"
  | notText => "stream did not contain valid UTF-8"
  | other message => message

end FileFault

/-- Why a workload cannot be loaded. -/
inductive LoadFault where
  | unreadable (path : String) (cause : FileFault)
  | malformed
  deriving DecidableEq, Repr

namespace LoadFault

/-- The wording of the fault. -/
def message : LoadFault → String
  | unreadable path _ => s!"failed to read workload file {path}"
  | malformed => "malformed workload config"

/-- The wording of the fault and of what caused it, if that is known. -/
def messages : LoadFault → List String
  | unreadable path cause => [(unreadable path cause).message, cause.message]
  | malformed => [malformed.message]

end LoadFault

/-- Why a batch does not come to its end. -/
inductive RunFault where
  /-- The bus refused something. -/
  | bus (fault : Fault)
  /-- The tasks cannot be counted, or no list may have so many. -/
  | tooManyTasks (overflow : Overflow)
  /-- The host could not start the task with this name. -/
  | notStarted (task : String)
  /-- The task with this name broke off. -/
  | brokenOff (task : String)
  deriving DecidableEq, Repr

namespace RunFault

/-- The wording of the fault.  A fault of the bus speaks for itself. -/
def message : RunFault → String
  | bus fault => fault.message
  | tooManyTasks overflow => overflow.message
  | notStarted task => s!"failed to spawn task {task}"
  | brokenOff task => s!"task {task} panicked"

end RunFault

end HalfDuplex

/-!
# Log lines

A `Remark` is one structured log line: a level, a fixed message and named text fields in order.
The modules that have something to report define their own notes and say which remark each note
is.
-/

namespace HalfDuplex

/-- How much a log line matters. -/
inductive Level where
  | trace
  | debug
  | info
  | warn
  | error
  deriving DecidableEq, Repr

namespace Level

/-- The name of a level. -/
def name : Level → String
  | trace => "TRACE"
  | debug => "DEBUG"
  | info => "INFO"
  | warn => "WARN"
  | error => "ERROR"

end Level

/-- One log line. -/
structure Remark where
  level : Level
  message : String
  /-- Field names with the text of their values. -/
  fields : List (String × String)
  deriving DecidableEq, Repr

end HalfDuplex

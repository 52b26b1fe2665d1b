import HalfDuplex.Simulation

/-!
# The command `bus-sim`

Gives `Simulation.run` the arguments, the environment and the files of the process, prints what
it answers and ends with its number.
-/

namespace HalfDuplex

namespace Simulation

/-- The variables that the simulation looks at. -/
def keys : List String :=
  [Environment.capacityKey, Environment.fairnessKey, Environment.streakLimitKey,
    Environment.yieldToOppositeKey]

/-- The variables of the process. -/
def processEnvironment : IO Environment := do
  let values ← keys.mapM fun key => return (key, ← IO.getEnv key)
  return fun key => (values.lookup key).join

/-- The text of a file of the process. -/
def fileText (path : String) : IO (Except FileFault String) := do
  try
    let data ← IO.FS.readBinFile path
    match String.fromUTF8? data with
    | some s => return .ok s
    | none => return .error .notText
  catch
    | .noFileOrDirectory .. => return .error .notFound
    | e => return .error (.other (toString e))

/-- The file that the arguments name, if they name one, as a function of its path. -/
def readNamedFile (args : List String) : IO (String → Except FileFault String) := do
  match (Options.parse args).toOption.bind Options.config with
  | none => return fun _ => .error .notFound
  | some path =>
    let content ← fileText path
    return fun _ => content

end Simulation

end HalfDuplex

open HalfDuplex in
/-- Runs the simulation in this process. -/
def main (args : List String) : IO UInt32 := do
  let env ← Simulation.processEnvironment
  let fileText ← Simulation.readNamedFile args
  let outcome := Simulation.run args env fileText
  for line in outcome.output do
    IO.println line
  for line in outcome.complaint do
    IO.eprintln line
  return UInt32.ofNat outcome.exit

import QueryBuild.CommandLine.Session
import QueryBuild.Host.Snapshot
/-!
# The program

Calls the program with its arguments on the files that one line of standard input describes, and
prints what the call prints.
-/

namespace QueryBuild

/-- The variables that a call looks at or hands on. -/
def knownVariables : List String :=
  ["PATH", Settings.compilerVariable, CommandLine.filterVariable]

def readVariables : IO Host.Environment := do
  let found ← knownVariables.mapM fun name => do
    return (← IO.getEnv name).map fun value => (name, value)
  return found.filterMap id

def showEnding (ending : CommandLine.Ending) : IO UInt32 := do
  (← IO.getStdout).write ending.output
  (← IO.getStderr).putStr ending.errors
  return ending.status.toUInt32

end QueryBuild

open QueryBuild in
def main (arguments : List String) : IO UInt32 := do
  let description ← (← IO.getStdin).getLine
  match Host.Snapshot.ofText description with
  | .error failure =>
    (← IO.getStderr).putStr (CommandLine.errorLine (failure.message description))
    return 2
  | .ok snapshot =>
    let environment ← readVariables
    showEnding (CommandLine.call arguments ⟨environment, snapshot.timestamp, snapshot.files⟩)

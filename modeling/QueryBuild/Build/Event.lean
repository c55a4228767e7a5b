import QueryBuild.Files.Basic
import QueryBuild.IoError
import QueryBuild.Path
import QueryBuild.ProcessOutput
import QueryBuild.Report
/-!
# Events of a build

What a build does that others can see, in the order in which it happens: it starts and finishes
work on units, it asks a validator about their texts, and it calls a compiler and the artifacts.
-/

namespace QueryBuild

inductive Phase where
  | compile
  | run
deriving DecidableEq, Inhabited

def Phase.text : Phase → String
  | compile => "compile"
  | run => "run"

inductive Call where
  /-- The validator is asked whether the text of a unit is a query. -/
  | validator (unit sql : String)
  /-- The compiler is to make an artifact from a program. -/
  | compiler (program artifact : Path)
  | artifact (unit : String)
deriving DecidableEq, Inhabited

/-- What a call is answered with: a validator says why a text is no query, if it is none; of a
program it is known how it ended, if it could be started. -/
abbrev Call.Answer : Call → Type
  | validator _ _ => Except String Unit
  | compiler _ _ | artifact _ => Except IoError ProcessOutput

inductive Event where
  | started (phase : Phase) (unit : String)
  /-- A call was answered, and what was called wrote some output. -/
  | called (call : Call) (answer : call.Answer) (output : ByteArray)
  | finished (phase : Phase) (record : UnitRecord)

end QueryBuild

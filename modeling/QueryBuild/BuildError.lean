import QueryBuild.Path
import QueryBuild.IoError
import QueryBuild.Diagnostic
import QueryBuild.Graph.Basic
import QueryBuild.Text.Blank
/-!
# Errors that stop a build

Each error names the unit that it concerns, if there is one, and keeps the words of whoever
failed, so that its diagnostic can show both.
-/

namespace QueryBuild

structure Rejection where
  reason : String
  file : Option Path
deriving DecidableEq, Inhabited

namespace Rejection

def text (r : Rejection) : String :=
  "SQL validation failed: " ++ r.reason

def toDiagnostic (r : Rejection) : Diagnostic :=
  { Diagnostic.error .sqlValidationError r.text with
    location := r.file.map Path.text
    detail := some r.reason }

end Rejection

/-- Why the units of a directory cannot be put in order. -/
inductive GraphError where
  | noUnits (directory : Path)
  | duplicateUnit (name : String) (first second : Path)
  | cyclic (cycle : Cycle)
  | unreadable (path : Path) (cause : IoError)
deriving DecidableEq, Inhabited

namespace GraphError

def text : GraphError → String
  | noUnits directory => "no .sql files found in " ++ directory.text
  | duplicateUnit name first second =>
    "unit '" ++ name ++ "' is defined by both " ++ first.text ++ " and " ++ second.text
  | cyclic cycle => cycle.text
  | unreadable path cause => "failed to read " ++ path.text ++ ": " ++ cause.text

/-- The unit at which a cycle was met. -/
def unit : GraphError → Option String
  | cyclic cycle => some cycle.unit
  | _ => none

/-- The diagnostic of an error; a cycle lists its units as not reached. -/
def toDiagnostic (e : GraphError) : Diagnostic :=
  match e with
  | noUnits directory =>
    { Diagnostic.error .discoveryNoUnits e.text with location := some directory.text }
  | duplicateUnit name _ second =>
    { Diagnostic.error .discoveryDuplicateUnit e.text with
      unit := some name
      location := some second.text }
  | cyclic cycle =>
    { Diagnostic.error .graphCycle e.text with
      unit := some cycle.unit
      impact := cycle.path }
  | unreadable path _ =>
    { Diagnostic.error .ioError e.text with location := some path.text }

end GraphError

inductive BuildError where
  | unordered (cause : GraphError)
  | invalid (unit : String) (cause : Rejection)
  | notGenerated (unit : String) (path : Path) (cause : IoError)
  | notCompiled (unit reason stderr : String)
  | notExecuted (unit reason stderr : String)
  | inaccessible (unit : String) (path : Path) (cause : IoError)
deriving DecidableEq, Inhabited

namespace BuildError

def text : BuildError → String
  | unordered cause => cause.text
  | invalid unit cause => unit ++ ": " ++ cause.text
  | notGenerated unit path cause =>
    unit ++ ": failed to write " ++ path.text ++ ": " ++ cause.text
  | notCompiled unit reason _ => unit ++ ": compilation failed: " ++ reason
  | notExecuted unit reason _ => unit ++ ": execution failed: " ++ reason
  | inaccessible unit path cause =>
    unit ++ ": cannot access " ++ path.text ++ ": " ++ cause.text

def unit : BuildError → Option String
  | unordered cause => cause.unit
  | invalid unit _ | notGenerated unit _ _ | notCompiled unit _ _ | notExecuted unit _ _
  | inaccessible unit _ _ => some unit

/-- The output of a process as a detail: without its trailing white space, and none if nothing is
left. -/
def outputDetail (stderr : String) : Option String :=
  let trimmed := Text.trimEnd stderr
  if trimmed.isEmpty then none else some trimmed

def toDiagnostic (e : BuildError) : Diagnostic :=
  match e with
  | unordered cause => cause.toDiagnostic
  | invalid unit cause =>
    { cause.toDiagnostic with message := e.text, unit := some unit }
  | notGenerated unit path _ =>
    { Diagnostic.error .codegenError e.text with
      unit := some unit
      location := some path.text }
  | notCompiled unit _ stderr =>
    { Diagnostic.error .toolchainFailed e.text with
      unit := some unit
      detail := outputDetail stderr }
  | notExecuted unit _ stderr =>
    { Diagnostic.error .executionFailed e.text with
      unit := some unit
      detail := outputDetail stderr }
  | inaccessible unit path _ =>
    { Diagnostic.error .ioError e.text with
      unit := some unit
      location := some path.text }

theorem severity_toDiagnostic (e : BuildError) : e.toDiagnostic.severity = .error := by
  cases e with
  | unordered cause => cases cause <;> rfl
  | _ => rfl

end BuildError

end QueryBuild

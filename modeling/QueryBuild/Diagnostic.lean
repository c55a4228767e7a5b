import QueryBuild.Json.Basic
/-!
# Diagnostics

What went wrong, how badly, where, and which units were not reached because of it. The codes are
stable: reports are read by other programs.
-/

namespace QueryBuild

inductive Diagnostic.Code where
  | discoveryNoUnits
  | discoveryDuplicateUnit
  | graphCycle
  | sqlValidationError
  | codegenError
  | toolchainFailed
  | executionFailed
  | ioError
  | info
  | warning
deriving DecidableEq, Inhabited

namespace Diagnostic.Code

/-- The stable identifier of a code. -/
def text : Code → String
  | discoveryNoUnits => "DISCOVERY_NO_UNITS"
  | discoveryDuplicateUnit => "DISCOVERY_DUPLICATE_UNIT"
  | graphCycle => "GRAPH_CYCLE"
  | sqlValidationError => "SQL_VALIDATION_ERROR"
  | codegenError => "CODEGEN_ERROR"
  | toolchainFailed => "TOOLCHAIN_FAILED"
  | executionFailed => "EXECUTION_FAILED"
  | ioError => "IO_ERROR"
  | info => "INFO"
  | warning => "WARNING"

def all : List Code :=
  [discoveryNoUnits, discoveryDuplicateUnit, graphCycle, sqlValidationError, codegenError,
    toolchainFailed, executionFailed, ioError, info, warning]

def ofText? (s : String) : Option Code :=
  all.find? fun code => code.text == s

theorem ofText?_text (code : Code) : ofText? code.text = some code := by
  cases code <;> rfl

end Diagnostic.Code

/-- How bad a diagnostic is; only an error stops a build. -/
inductive Diagnostic.Severity where
  | info
  | warn
  | error
deriving DecidableEq, Inhabited

namespace Diagnostic.Severity

def text : Severity → String
  | info => "info"
  | warn => "warn"
  | error => "error"

def all : List Severity :=
  [info, warn, error]

def ofText? (s : String) : Option Severity :=
  all.find? fun severity => severity.text == s

theorem ofText?_text (severity : Severity) : ofText? severity.text = some severity := by
  cases severity <;> rfl

end Diagnostic.Severity

structure Diagnostic where
  code : Diagnostic.Code
  severity : Diagnostic.Severity
  message : String
  unit : Option String
  location : Option String
  /-- The unchanged output of whoever failed. -/
  detail : Option String
  /-- The units that were not reached. -/
  impact : List String
deriving DecidableEq, Inhabited

namespace Diagnostic

def error (code : Code) (message : String) : Diagnostic :=
  ⟨code, .error, message, none, none, none, []⟩

/-- The diagnostic as a JSON object; an absent unit or detail is left out, an absent location is
null. -/
def toJson (d : Diagnostic) : Json :=
  .obj <|
    [("code", .str d.code.text), ("severity", .str d.severity.text), ("message", .str d.message)] ++
    (d.unit.map fun unit => ("unit", Json.str unit)).toList ++
    [("location", match d.location with
      | none => .null
      | some file => .obj [("file", .str file)])] ++
    (d.detail.map fun detail => ("detail", Json.str detail)).toList ++
    [("impact", Json.strings d.impact)]

end Diagnostic

end QueryBuild

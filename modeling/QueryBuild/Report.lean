import QueryBuild.Diagnostic
/-!
# Build reports

The record of one invocation: the order of the units, what was done to each of them, and the
diagnostics, with counters over both lists.
-/

namespace QueryBuild

inductive UnitAction where
  | compiled
  /-- Nothing, as its artifact is newer than its source. -/
  | upToDate
  | executed
deriving DecidableEq, Inhabited

namespace UnitAction

def text : UnitAction → String
  | compiled => "compiled"
  | upToDate => "up to date"
  | executed => "executed"

def key : UnitAction → String
  | compiled => "compiled"
  | upToDate => "up_to_date"
  | executed => "executed"

def all : List UnitAction :=
  [compiled, upToDate, executed]

def ofKey? (s : String) : Option UnitAction :=
  all.find? fun action => action.key == s

theorem ofKey?_key (action : UnitAction) : ofKey? action.key = some action := by
  cases action <;> rfl

end UnitAction

structure UnitRecord where
  name : String
  action : UnitAction
  /-- The digest of the source at the time, if it could be read. -/
  sourceSha256 : Option String
deriving DecidableEq, Inhabited

/-- The record as a JSON object; an absent digest is left out. -/
def UnitRecord.toJson (r : UnitRecord) : Json :=
  .obj <|
    [("name", .str r.name), ("action", .str r.action.key)] ++
    (r.sourceSha256.map fun digest => ("source_sha256", Json.str digest)).toList

structure Summary where
  total : Nat
  errors : Nat
  warnings : Nat
  info : Nat
  compiled : Nat
  upToDate : Nat
  executed : Nat
deriving DecidableEq, Inhabited

namespace Summary

def zero : Summary :=
  ⟨0, 0, 0, 0, 0, 0, 0⟩

def countAction (s : Summary) : UnitAction → Summary
  | .compiled => { s with compiled := s.compiled + 1 }
  | .upToDate => { s with upToDate := s.upToDate + 1 }
  | .executed => { s with executed := s.executed + 1 }

def countSeverity (s : Summary) : Diagnostic.Severity → Summary
  | .error => { s with errors := s.errors + 1, total := s.total + 1 }
  | .warn => { s with warnings := s.warnings + 1, total := s.total + 1 }
  | .info => { s with info := s.info + 1, total := s.total + 1 }

def toJson (s : Summary) : Json :=
  .obj [("total", .num s.total), ("errors", .num s.errors), ("warnings", .num s.warnings),
    ("info", .num s.info), ("compiled", .num s.compiled), ("up_to_date", .num s.upToDate),
    ("executed", .num s.executed)]

end Summary

structure ReportVersion where
  major : Nat
  minor : Nat
deriving DecidableEq, Inhabited

namespace ReportVersion

def current : ReportVersion :=
  ⟨1, 0⟩

def text (v : ReportVersion) : String :=
  toString v.major ++ "." ++ toString v.minor

end ReportVersion

/-- The report of one invocation. -/
structure Report where
  version : ReportVersion
  timestamp : String
  command : String
  directory : String
  /-- The build order; empty if there is none. -/
  order : List String
  summary : Summary
  /-- What was done, in the order in which it happened. -/
  units : List UnitRecord
  diagnostics : List Diagnostic
deriving DecidableEq, Inhabited

namespace Report

/-- The report of a command before anything happened. -/
def start (timestamp command directory : String) : Report :=
  ⟨.current, timestamp, command, directory, [], .zero, [], []⟩

def setOrder (r : Report) (order : List String) : Report :=
  { r with order := order }

def addUnit (r : Report) (record : UnitRecord) : Report :=
  { r with
    summary := r.summary.countAction record.action
    units := r.units ++ [record] }

def addDiagnostic (r : Report) (d : Diagnostic) : Report :=
  { r with
    summary := r.summary.countSeverity d.severity
    diagnostics := r.diagnostics ++ [d] }

def hasErrors (r : Report) : Bool :=
  r.summary.errors > 0

def toJson (r : Report) : Json :=
  .obj [("version", .obj [("major", .num r.version.major), ("minor", .num r.version.minor)]),
    ("timestamp", .str r.timestamp), ("command", .str r.command), ("directory", .str r.directory),
    ("order", Json.strings r.order), ("summary", r.summary.toJson),
    ("units", .arr (r.units.map UnitRecord.toJson)),
    ("diagnostics", .arr (r.diagnostics.map Diagnostic.toJson))]

end Report

end QueryBuild

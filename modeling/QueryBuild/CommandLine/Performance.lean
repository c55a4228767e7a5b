import QueryBuild.Build.Pipeline
import QueryBuild.CommandLine.Invocation
import QueryBuild.CommandLine.Warning
/-!
# Performing tasks

What a task does to the files, what it prints and what its report says. Failures of units end up in
the report; only a plan can break off without one.
-/

namespace QueryBuild

namespace Report

def addUnits (r : Report) (records : List UnitRecord) : Report :=
  records.foldl addUnit r

/-- Records a build: what was done, and the failure if there is one. -/
def addBuild (r : Report) (outcome : Except BuildFailure (List UnitRecord)) : Report :=
  match outcome with
  | .ok records => r.addUnits records
  | .error failure => (r.addUnits failure.completed).addDiagnostic failure.toDiagnostic

end Report

namespace CommandLine

structure Performance where
  report : Report
  files : FileSystem
  output : ByteArray
  warnings : List Warning
  /-- Why the task broke off, if it did. -/
  trouble : Option String

/-- The progress that an event shows, among the output of the called programs. -/
def progress : Event → ByteArray
  | .started phase unit => ("[" ++ phase.text ++ "] " ++ unit ++ "\n").toUTF8
  | .called _ _ output => output
  | .finished _ record =>
    match record.action with
    | .upToDate => ("[skip] " ++ record.name ++ "\n").toUTF8
    | _ => .empty

def concat (outputs : List ByteArray) : ByteArray :=
  outputs.foldl ByteArray.append .empty

def compiledText (s : Summary) : String :=
  toString s.compiled ++ " compiled, " ++ toString s.upToDate ++ " up to date"

def executedText (s : Summary) : String :=
  toString s.executed ++ " executed"

/-- The phases of a task that builds, with the words for what they did. -/
structure Phases where
  perform : BuildPlan → FileSystem → BuildResult
  summary : Summary → String

/-- Looks for a build order. Without one the report says why. -/
def withPlan (report : Report) (directory : Path) (fs : FileSystem)
    (next : BuildPlan → Report → Performance) : Performance :=
  let (skipped, resolved) := BuildPlan.resolve fs directory
  let performance : Performance :=
    match resolved with
    | .error e => ⟨report.addDiagnostic e.toDiagnostic, fs, .empty, [], none⟩
    | .ok plan => next plan (report.setOrder plan.names)
  { performance with warnings := skipped.map Warning.skippedSource ++ performance.warnings }

def performBuild (phases : Phases) (report : Report) (directory : Path) (fs : FileSystem) :
    Performance :=
  withPlan report directory fs fun plan report =>
    let result := phases.perform plan fs
    let report := report.addBuild result.outcome
    let closing :=
      match result.outcome with
      | .ok _ => ("✓ " ++ phases.summary report.summary ++ "\n").toUTF8
      | .error _ => .empty
    ⟨report, result.files, concat (result.events.map progress) ++ closing,
      result.events.filterMap Warning.ofEvent?, none⟩

def planLines (plan : BuildPlan) (place : Nat) (u : BuildUnit) (state : Staleness) : String :=
  let dependencies := plan.dependencies u
  "  " ++ toString place ++ ". " ++ u.name ++ " (" ++ state.text ++ ")\n" ++
    if dependencies.isEmpty then ""
    else "       depends on: " ++ ", ".intercalate dependencies ++ "\n"

/-- The lines of a plan for units, and the first error. -/
def planText (plan : BuildPlan) (fs : FileSystem) (place : Nat) :
    List BuildUnit → String × Option IoError
  | [] => ("", none)
  | u :: units =>
    match Staleness.ofUnit fs u with
    -- The lines of the units in front are shown all the same.
    | .error e => ("", some e)
    | .ok state =>
      let (text, trouble) := planText plan fs (place + 1) units
      (planLines plan place u state ++ text, trouble)

/-- Shows the build order of a directory, or of what a unit needs. -/
def performPlan (target : Option String) (report : Report) (directory : Path) (fs : FileSystem) :
    Performance :=
  withPlan report directory fs fun plan report =>
    let units :=
      match target with
      | none => some plan.order
      | some name => plan.targetOrder name
    match units with
    | none =>
      let trouble :=
        "Unit " ++ inQuotes (target.getD "") ++ " not found in " ++ plan.directory.text
      ⟨report, fs, .empty, [], some trouble⟩
    | some units =>
      let (text, trouble) := planText plan fs 1 units
      ⟨report, fs, ("Build order for " ++ plan.directory.text ++ "\n\n" ++ text).toUTF8, [],
        trouble.map IoError.text⟩

/-- The unit of a file, found without its links. -/
def unitOfFile (fs : FileSystem) (file : Path) : Except Diagnostic BuildUnit :=
  let failure (message : String) : Diagnostic :=
    { Diagnostic.error .ioError message with location := some file.text }
  match fs.canonicalize file with
  | .error e => .error (failure ("failed to read " ++ file.text ++ ": " ++ e.text))
  | .ok location =>
    match (location.getLast?.map fun name => name.split.1).bind FileName.text? with
    | none => .error (failure ("not a SQL source file: " ++ file.text))
    | some stem => .ok (.ofSource stem location.path)

def performCodegen (validator : Validator) (report : Report) (file : Path) (fs : FileSystem) :
    Performance :=
  match unitOfFile fs file with
  | .error diagnostic => ⟨report.addDiagnostic diagnostic, fs, .empty, [], none⟩
  | .ok u =>
    match u.generate validator fs with
    | .error e => ⟨report.addDiagnostic e.toDiagnostic, fs, .empty, [], none⟩
    | .ok (program, files) =>
      ⟨report, files, ("[codegen] " ++ program.path.text ++ "\n").toUTF8, [], none⟩

def Task.perform (help : Collaborators) (report : Report) (fs : FileSystem) :
    Task → Performance
  | compile directory force =>
    performBuild ⟨fun plan => plan.compile help force, compiledText⟩ report directory fs
  | run directory =>
    performBuild ⟨fun plan => plan.run help, executedText⟩ report directory fs
  | all directory force =>
    performBuild ⟨fun plan => plan.build help force,
      fun s => compiledText s ++ ", " ++ executedText s⟩ report directory fs
  | plan directory target => performPlan target report directory fs
  | codegen file => performCodegen help.validator report file fs

end CommandLine

end QueryBuild

import QueryBuild.CommandLine.Performance
import QueryBuild.Host.Process
import QueryBuild.SettingsFile
/-!
# Sessions

One call of the program, from its arguments to its exit status. A report that was asked for is
written whether or not units failed, and errors in it make the call fail.
-/

namespace QueryBuild.CommandLine

/-- What a call leaves behind. -/
structure Ending where
  status : Nat
  output : ByteArray
  errors : String
  files : FileSystem

/-- What a call finds. -/
structure Circumstances where
  environment : Host.Environment
  /-- The time as reports and logs show it. -/
  timestamp : String
  files : FileSystem

/-- The line for an error that is in no report. -/
def errorLine (message : String) : String :=
  "Error: " ++ message ++ "\n"

def settingsLines (found : Option Path) (settings : Settings) : String :=
  (if found.isNone then "No config file found, using defaults\n" else "") ++
    "Using dialect: " ++ settings.dialect.label ++ ", compiler: " ++
    settings.toolchain.compiler ++ "\n"

def severityLabel : Diagnostic.Severity → String
  | .error => "ERROR"
  | .warn => "WARN"
  | .info => "INFO"

/-- A diagnostic as it is shown: what went wrong, where, the words of whoever failed, and what was
not reached. -/
def diagnosticLines (d : Diagnostic) : List String :=
  ["[" ++ severityLabel d.severity ++ "] " ++ d.code.text ++ ": " ++ d.message] ++
    (d.location.map fun file => "    at " ++ file).toList ++
    ((d.detail.map Text.lines).getD []).map (fun line => "    " ++ line) ++
    (if d.impact.isEmpty then [] else ["    Not reached: " ++ ", ".intercalate d.impact])

def failureText (r : Report) : String :=
  String.join (("" :: r.diagnostics.flatMap diagnosticLines).map fun line => line ++ "\n")

def filterVariable : String := "RUST_LOG"

/-- The filter of an invocation: everything but traces if it is verbose, else the one that the
environment asks for, else warnings. -/
def filterOf (verbose : Bool) (environment : Host.Environment) : LogFilter :=
  if verbose then .upTo .debug
  else ((environment.lookup filterVariable).bind LogFilter.ofText?).getD (.upTo .warn)

/-- Writes the report if it was asked for, and tells so if the invocation is verbose. -/
def saveReport (i : Invocation) (r : Report) (fs : FileSystem) :
    Except IoError (FileSystem × String) :=
  match i.report with
  | none => .ok (fs, "")
  | some path =>
    (fs.writeText path r.toJson.text).map fun files =>
      (files, if i.verbose then "Report saved to: " ++ path.text ++ "\n" else "")

/-- Ends a call: writes the report that was asked for, and shows the failures in it. -/
def conclude (i : Invocation) (errors : String) (p : Performance) : Ending :=
  match p.trouble with
  -- A task that broke off leaves no report behind.
  | some message => ⟨1, p.output, errors ++ errorLine message, p.files⟩
  | none =>
    match saveReport i p.report p.files with
    | .error e => ⟨1, p.output, errors ++ errorLine e.text, p.files⟩
    | .ok (files, note) =>
      if p.report.hasErrors then ⟨1, p.output, errors ++ note ++ failureText p.report, files⟩
      else ⟨0, p.output, errors ++ note, files⟩

/-- Who helps with a call that finds an environment and settings. -/
abbrev Provider := Host.Environment → Settings → Collaborators

def Invocation.perform (provide : Provider) (i : Invocation) (c : Circumstances) : Ending :=
  let directory := i.task.directory
  match Settings.discover c.files i.settings (some directory) with
  | .error e => ⟨1, .empty, errorLine e.text, c.files⟩
  | .ok (settings, found) =>
    -- The environment has the last word, whatever the file says.
    let settings := settings.overrideCompiler (c.environment.lookup Settings.compilerVariable)
    let report := Report.start c.timestamp i.task.name directory.text
    let p := i.task.perform (provide c.environment settings) report c.files
    let errors := if i.verbose then settingsLines found settings else ""
    let filter := filterOf i.verbose c.environment
    conclude i (errors ++ Warning.log filter c.timestamp p.warnings) p

def Stop.ending (fs : FileSystem) : Stop → Ending
  | help form => ⟨0, form.help.toUTF8, "", fs⟩
  | version => ⟨0, (programName ++ " " ++ programVersion ++ "\n").toUTF8, "", fs⟩
  | silence form => ⟨2, .empty, form.help, fs⟩
  | refused refusal => ⟨2, .empty, refusal.text, fs⟩

/-- Calls the program with some collaborators; the file of variables is read first. -/
def callWith (provide : Provider) (arguments : List String) (c : Circumstances) : Ending :=
  let environment := Host.EnvironmentFile.load c.files c.environment
  match Invocation.ofArguments arguments with
  | .error stop => stop.ending c.files
  | .ok invocation => invocation.perform provide { c with environment := environment }

/-- Calls the program with what a computer provides. -/
def call : List String → Circumstances → Ending :=
  callWith Host.collaborators

end QueryBuild.CommandLine

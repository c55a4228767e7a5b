import QueryBuild.CommandLine.Reader
import QueryBuild.Path
/-!
# Invocations

What a command line asks for: one of five tasks, and what is common to all of them.
-/

namespace QueryBuild.CommandLine

inductive Task where
  | compile (directory : Path) (force : Bool)
  | run (directory : Path)
  | all (directory : Path) (force : Bool)
  | plan (directory : Path) (target : Option String)
  | codegen (file : Path)
deriving DecidableEq, Inhabited

namespace Task

def name : Task → String
  | compile _ _ => "compile"
  | run _ => "run"
  | all _ _ => "all"
  | plan _ _ => "plan"
  | codegen _ => "codegen"

def directory : Task → Path
  | compile directory _ | run directory | all directory _ | plan directory _ => directory
  | codegen file => file.parent?.getD ⟨"."⟩

end Task

/-- What a command line asks for. -/
structure Invocation where
  settings : Option Path
  verbose : Bool
  report : Option Path
  task : Task
deriving DecidableEq, Inhabited

def programName : String := "sqlbuild"

def programVersion : String := "0.1.0"

def settingsOption : OptionForm :=
  ⟨"config", some 'c', .value "CONFIG" false,
    "Path to config file (default: <dir>/sqlbuild.toml, then ./sqlbuild.toml)"⟩

def verboseOption : OptionForm :=
  ⟨"verbose", some 'v', .flag, "Enable verbose output"⟩

def reportOption : OptionForm :=
  ⟨"report", none, .value "REPORT" false, "Write a JSON build report to this path"⟩

def forceOption : OptionForm :=
  ⟨"force", some 'f', .flag, "Recompile units even when their artifacts are up to date"⟩

def targetOption : OptionForm :=
  ⟨"target", some 't', .value "TARGET" true, "Only show this unit and what it depends on"⟩

def helpOption : OptionForm :=
  ⟨"help", some 'h', .help, "Print help"⟩

def versionOption : OptionForm :=
  ⟨"version", some 'V', .version, "Print version"⟩

def sharedOptions : List OptionForm :=
  [settingsOption, verboseOption, reportOption]

def directoryOperand : OperandForm :=
  ⟨"DIR", true, "Build directory holding the .sql units"⟩

def fileOperand : OperandForm :=
  ⟨"FILE", true, "SQL source file"⟩

def taskForm (name about : String) (own : List OptionForm) (operand : OperandForm) :
    String × CommandForm :=
  (name, ⟨programName ++ " " ++ name, about, own, sharedOptions, [helpOption], some operand, []⟩)

def taskForms : List (String × CommandForm) := [
  taskForm "compile" "Compile every stale unit in dependency order" [forceOption]
    directoryOperand,
  taskForm "run" "Execute every compiled unit in dependency order" [] directoryOperand,
  taskForm "all" "Compile, then run" [forceOption] directoryOperand,
  taskForm "plan" "Show the build order, dependencies and staleness" [targetOption]
    directoryOperand,
  taskForm "codegen" "Validate one SQL file and write its generated program without compiling" []
    fileOperand]

def helpForm : CommandForm where
  words := programName ++ " help"
  about := "Print this message or the help of the given subcommand(s)"
  own := []
  shared := []
  closing := []
  operand := some ⟨"COMMAND", false, "Print help for the subcommand(s)"⟩
  commands := []

def programForm : CommandForm where
  words := programName
  about := programName ++ " - incremental builds for pipelines of SQL units"
  own := []
  shared := sharedOptions
  closing := [helpOption, versionOption]
  operand := none
  commands := (taskForms ++ [("help", helpForm)]).map fun (name, form) => (name, form.about)

/-- What is shown to those who ask for help on a command: the commands that lead to it have to
exist. -/
def readHelp (form : CommandForm) (known : List (String × CommandForm)) : List String → Stop
  | [] => .help form
  | word :: rest =>
    match known.lookup word with
    | some further => readHelp further [] rest
    | none =>
      .refused ⟨.unknownCommand word, [], some (form.usage []), !form.closing.isEmpty⟩

/-- The value of an option, as given to a command or before it. -/
def sharedValue (outer inner : Given) (o : OptionForm) : Option Path :=
  ((inner.value? (.option o)) <|> (outer.value? (.option o))).map Path.mk

/-- The task of a command with what was given to it. -/
def taskOf (name : String) (g : Given) : Task :=
  let path (operand : OperandForm) : Path := ⟨(g.value? (.operand operand)).getD ""⟩
  let force := g.has (.option forceOption)
  match name with
  | "compile" => .compile (path directoryOperand) force
  | "run" => .run (path directoryOperand)
  | "all" => .all (path directoryOperand) force
  | "plan" => .plan (path directoryOperand) (g.value? (.option targetOption))
  | _ => .codegen (path fileOperand)

def Invocation.ofArguments (arguments : List String) : Except Stop Invocation := do
  let (outer, branch) ← readArguments programForm taskForms false .nothing arguments
  match branch with
  | none => finishWithout programForm outer
  | some ("help", rest) => throw (readHelp programForm (taskForms ++ [("help", helpForm)]) rest)
  | some (name, rest) =>
    let form := (taskForms.lookup name).getD programForm
    let (inner, _) ← readArguments form [] false .nothing rest
    let inner ← finish form inner
    let outer ← orRefuse (outer.settle programForm)
    return {
      settings := sharedValue outer inner settingsOption
      verbose := outer.has (.option verboseOption) || inner.has (.option verboseOption)
      report := sharedValue outer inner reportOption
      task := taskOf name inner }

end QueryBuild.CommandLine

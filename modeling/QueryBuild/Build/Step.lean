import QueryBuild.Build.Collaborators
import QueryBuild.Build.Event
import QueryBuild.Program.Render
import QueryBuild.Staleness
import QueryBuild.UnitGraph
/-!
# Building one unit

To compile a unit is to check its text, to write its program and to call the compiler. To run it
is to call its artifact. Nothing is written unless the text is a query.
-/

namespace QueryBuild

structure Step (α : Type) where
  result : Except BuildError α
  files : FileSystem
  events : List Event

/-- Goes on with what a step gave, unless it failed. -/
def Step.andThen {α β : Type} (s : Step α) (next : α → FileSystem → Step β) : Step β :=
  match s.result with
  | .error e => ⟨.error e, s.files, s.events⟩
  | .ok given =>
    let later := next given s.files
    ⟨later.result, later.files, s.events ++ later.events⟩

/-- The record of an action on a unit, with the digest that its source has now. -/
def UnitRecord.ofUnit (fs : FileSystem) (u : BuildUnit) (action : UnitAction) : UnitRecord :=
  ⟨u.name, action, (u.sourceDigest fs).toOption⟩

namespace BuildUnit

/-- Reads the text of a unit and asks whether it is a query. -/
def check (validator : Validator) (u : BuildUnit) (fs : FileSystem) : Step String :=
  match u.sourceText fs with
  | .error e => ⟨.error (.inaccessible u.name u.source e), fs, []⟩
  | .ok sql =>
    let verdict := validator sql
    let result :=
      match verdict with
      | .error reason => .error (.invalid u.name ⟨reason, some u.source⟩)
      | .ok () => .ok sql
    ⟨result, fs, [.called (.validator u.name sql) verdict .empty]⟩

/-- Writes the program of a unit for a text. -/
def place (u : BuildUnit) (sql : String) (fs : FileSystem) : Step Program :=
  let program := Program.render u sql
  match fs.writeText program.path program.source with
  | .error e => ⟨.error (.notGenerated u.name program.path e), fs, []⟩
  | .ok files => ⟨.ok program, files, []⟩

/-- Checks the text of a unit and writes its program. -/
def produce (validator : Validator) (u : BuildUnit) (fs : FileSystem) : Step Program :=
  (u.check validator fs).andThen u.place

/-- The program of a unit and the files with it, once its text is checked. -/
def generate (validator : Validator) (u : BuildUnit) (fs : FileSystem) :
    Except BuildError (Program × FileSystem) :=
  let produced := u.produce validator fs
  produced.result.map fun program => (program, produced.files)

/-- Whether a call went well, and if not, why: `refused` is said of a program that could not be
started. -/
def judge (refused : String) (error : String → String → BuildError)
    (result : Except IoError ProcessOutput) : Except BuildError Unit :=
  match result with
  | .error e => .error (error (refused ++ e.text) "")
  | .ok output =>
    if output.success then .ok () else .error (error output.describeExit output.stderr)

/-- Has the compiler make the artifact of a unit from a program. -/
def callCompiler (toolchain : Toolchain) (u : BuildUnit) (program : Program) (fs : FileSystem) :
    Step Unit :=
  let reaction := toolchain program.path u.artifact fs
  ⟨judge "compiler could not be started: " (.notCompiled u.name) reaction.result, reaction.files,
    [.called (.compiler program.path u.artifact) reaction.result reaction.output]⟩

def build (help : Collaborators) (u : BuildUnit) (fs : FileSystem) : Step Unit :=
  (u.produce help.validator fs).andThen (u.callCompiler help.toolchain)

/-- Compiles a unit, unless its artifact is up to date and nothing forces it. -/
def compile (help : Collaborators) (force : Bool) (u : BuildUnit) (fs : FileSystem) :
    Step UnitRecord :=
  match Staleness.ofUnit fs u with
  | .error e => ⟨.error (.inaccessible u.name u.source e), fs, []⟩
  | .ok staleness =>
    if !force && !staleness.needsRebuild then
      ⟨.ok (.ofUnit fs u .upToDate), fs, []⟩
    else
      let built := u.build help fs
      ⟨built.result.map fun _ => .ofUnit built.files u .compiled, built.files,
        .started .compile u.name :: built.events⟩

/-- Runs the artifact of a unit, which has to be there. -/
def run (help : Collaborators) (u : BuildUnit) (fs : FileSystem) : Step UnitRecord :=
  if fs.isFile u.artifact then
    let reaction := help.executor u fs
    let judged := judge "could not be started: " (.notExecuted u.name) reaction.result
    ⟨judged.map fun _ => .ofUnit reaction.files u .executed, reaction.files,
      [.started .run u.name, .called (.artifact u.name) reaction.result reaction.output]⟩
  else
    let reason := "artifact " ++ u.artifact.text ++ " not found; compile first"
    ⟨.error (.notExecuted u.name reason ""), fs, []⟩

end BuildUnit

end QueryBuild

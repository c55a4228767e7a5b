import QueryBuild.Build.Collaborators
import QueryBuild.Host.EnvironmentFile
import QueryBuild.Settings
import QueryBuild.Shell.Run
/-!
# Processes

A computer starts a program in a directory and waits until it ends. Such processes are the compiler
and the artifacts of a build.
-/

namespace QueryBuild.Host

def stepLimit : Nat := 100000

/-- The tools that the shell itself provides. -/
def shellTools : List String :=
  ["sh", "env"]

/-- The files that every computer has: the tools, and a device that keeps nothing. -/
def standardEntries (time : Instant) : List (Location × Entry) :=
  let at' (names : List String) : Location := names.map FileName.ofText
  let tool (name : String) : Location × Entry :=
    (at' ["usr", "bin", name],
      .file (Octets.toBytes (Program.mark ++ Octets.ofText name)) time true)
  [(at' ["usr"], .directory time), (at' ["usr", "bin"], .directory time),
    (at' ["bin"], .link "usr/bin"), (at' ["dev"], .directory time),
    (at' ["dev", "null"], .file .empty time false), (at' ["tmp"], .directory time)] ++
    (shellTools ++ Tool.named.map Prod.fst).map tool

def startState (environment : Environment) (fs : FileSystem) : Shell.State :=
  { (default : Shell.State) with
    files := fs
    channels := [(0, .nothing), (1, .stream 1), (2, .stream 2)]
    bindings := environment.map fun (name, value) => (name, ⟨Octets.ofText value, true⟩) }

/-- Executes the file at a path in the working directory and waits until it ends. -/
def executeFile (environment : Environment) (path : Octets) (words : List Octets)
    (fs : FileSystem) : Reaction :=
  let (result, after) :=
    (Shell.execute stepLimit path words).run (startState environment fs)
  let files := { after.files with workingDirectory := fs.workingDirectory }
  let written (id : Nat) : ByteArray := (after.outputs.lookup id).getD .empty
  let output (code : Option Int) : ProcessOutput :=
    ⟨code, Text.lossy (written 2).data.toList⟩
  match result with
  | .ok (.error e) => .refused fs e
  | .ok (.ok (some _)) => ⟨.ok (output none), files, written 1⟩
  | .error (.killed _) => ⟨.ok (output none), files, written 1⟩
  | .ok (.ok none) => ⟨.ok (output (some (after.status % 256 : Nat))), files, written 1⟩
  | .error _ => ⟨.ok (output (some (after.status % 256 : Nat))), files, written 1⟩

/-- No word of a command and no path may hold a NUL character. -/
def nulInCommand : IoError :=
  .described "nul byte found in provided data"

def start (environment : Environment) (program : String) (arguments : List String)
    (fs : FileSystem) : Reaction :=
  let words := (program :: arguments).map Octets.ofText
  if words.any fun word => word.contains '\x00' then .refused fs nulInCommand
  else
    let searched := ((environment.lookup "PATH").map Octets.ofText).getD Program.standardPath
    match Program.locate fs searched (Octets.ofText program) with
    | .error e => .refused fs e
    | .ok path => executeFile environment path words fs

def startIn (environment : Environment) (directory : Path) (program : String)
    (arguments : List String) (fs : FileSystem) : Reaction :=
  if directory.text.toList.contains '\x00' then .refused fs nulInCommand
  else
    match fs.find directory with
    | .error e => .refused fs e
    | .ok (location, .directory _) =>
      let reaction :=
        start environment program arguments { fs with workingDirectory := location }
      { reaction with
        files := { reaction.files with workingDirectory := fs.workingDirectory } }
    | .ok _ => .refused fs .notDirectory

/-- Calls a compiler with flags. -/
def toolchain (environment : Environment) (compiler : String) (flags : List String) :
    QueryBuild.Toolchain := fun program artifact fs =>
  start environment compiler (Settings.compileArguments flags program artifact) fs

/-- Runs artifacts in the directories of their units. -/
def executor (environment : Environment) : Executor := fun u fs =>
  startIn environment u.directory u.artifact.text [] fs

def collaborators (environment : Environment) (settings : Settings) : Collaborators where
  validator := Validator.ofDialect settings.dialect
  toolchain := toolchain environment settings.toolchain.compiler
    (settings.toolchain.flags settings.projectRoot)
  executor := executor environment

end QueryBuild.Host

import QueryBuild.Files.Access
import QueryBuild.SettingsText
/-!
# Finding settings

Settings are taken from a file that is named, else from the build directory, else from the working
directory. Without a file they are the initial ones.
-/

namespace QueryBuild

inductive SettingsError where
  | unreadable (path : Path) (cause : IoError)
  | malformed (source : String) (problem : Toml.Problem)
deriving DecidableEq, Inhabited

def SettingsError.text : SettingsError → String
  | unreadable path cause => "IO error: " ++ path.text ++ ": " ++ cause.text
  | malformed source problem => "Parse error: " ++ problem.text source

namespace Settings

def fileName : String := "sqlbuild.toml"

def compilerVariable : String := "SQLBUILD_COMPILER"

/-- Loads a file; relative directories lie below the directory of the file. -/
def load (fs : FileSystem) (path : Path) : Except SettingsError Settings :=
  match fs.readText path with
  | .error e => .error (.unreadable path e)
  | .ok source =>
    let root := path.parent?.getD (Location.path fs.workingDirectory)
    (ofText root source).mapError (SettingsError.malformed source)

def candidates (directory : Option Path) : List Path :=
  (directory.map fun dir => dir.join fileName).toList ++ [⟨fileName⟩]

/-- The settings for a build directory and the file that they come from. -/
def discover (fs : FileSystem) (named directory : Option Path) :
    Except SettingsError (Settings × Option Path) :=
  match named <|> (candidates directory).find? fs.isFile with
  | some path => (load fs path).map fun settings => (settings, some path)
  | none => .ok (initial (Location.path fs.workingDirectory), none)

end Settings

end QueryBuild

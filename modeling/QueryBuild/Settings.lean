import QueryBuild.Path
import QueryBuild.Query.Dialect
import QueryBuild.Text.Blank
/-!
# Settings

The dialect in which units are written and the compiler that turns their programs into artifacts.
-/

namespace QueryBuild

structure ToolchainSettings where
  compiler : String
  /-- The language standard, if one is asked for. -/
  standard : Option String
  includeDirs : List Path
  libraryDirs : List Path
  libraries : List String
  /-- Flags that are passed on unchanged. -/
  extraFlags : List String
deriving DecidableEq, Inhabited

namespace ToolchainSettings

def standardSettings : ToolchainSettings where
  compiler := "g++"
  standard := some "c++17"
  includeDirs := [⟨"duckdb/src/include"⟩]
  libraryDirs := [⟨"duckdb/build/release/src"⟩]
  libraries := ["duckdb_static", "ssl", "crypto", "pthread", "dl"]
  extraFlags := []

/-- The flags of a compilation: the standard, the directories below the project's root, the
libraries, and the flags that are passed on. -/
def flags (t : ToolchainSettings) (root : Path) : List String :=
  (t.standard.map fun standard => "-std=" ++ standard).toList ++
    t.includeDirs.map (fun dir => "-I" ++ (root.join dir.text).text) ++
    t.libraryDirs.map (fun dir => "-L" ++ (root.join dir.text).text) ++
    t.libraries.map (fun library => "-l" ++ library) ++
    t.extraFlags

end ToolchainSettings

structure Settings where
  dialect : Dialect
  toolchain : ToolchainSettings
  /-- The directory below which relative directories lie. -/
  projectRoot : Path
deriving DecidableEq, Inhabited

namespace Settings

/-- The settings without a file. -/
def initial (root : Path) : Settings :=
  ⟨.duckdb, .standardSettings, root⟩

/-- The settings with another compiler, unless its name is blank. -/
def overrideCompiler (s : Settings) (compiler : Option String) : Settings :=
  match compiler with
  | some name =>
    if Text.allBlank name then s else { s with toolchain := { s.toolchain with compiler := name } }
  | none => s

def compileArguments (flags : List String) (program artifact : Path) : List String :=
  [program.text, "-o", artifact.text] ++ flags

def compileCommand (s : Settings) (program artifact : Path) : List String :=
  s.toolchain.compiler ::
    compileArguments (s.toolchain.flags s.projectRoot) program artifact

end Settings

end QueryBuild

import QueryBuild.Path
/-!
# Build units

A unit is one file of SQL text together with the files derived from it: the program, the artifact
and the output. All of them lie in the directory of the source.
-/

namespace QueryBuild

/-- A named build target backed by one source file. -/
structure BuildUnit where
  name : String
  source : Path
  artifact : Path
deriving DecidableEq, Inhabited

namespace BuildUnit

def sourceExtension : String := "sql"

def programExtension : String := "cpp"

def outputExtension : String := "csv"

/-- The unit of a source file; its artifact is the sibling with the unit's name. -/
def ofSource (name : String) (source : Path) : BuildUnit :=
  ⟨name, source, source.withFileName name⟩

def inDirectory (directory : Path) (name : String) : BuildUnit :=
  ofSource name (directory.join (name ++ "." ++ sourceExtension))

/-- The directory that holds every file of the unit. -/
def directory (u : BuildUnit) : Path :=
  u.source.parent?.getD ⟨"."⟩

/-- The file in the unit's directory with the unit's name and an extension. The extension is
appended, since names may contain dots. -/
def sibling (u : BuildUnit) (extension : String) : Path :=
  u.directory.join (u.name ++ "." ++ extension)

def program (u : BuildUnit) : Path := u.sibling programExtension

def output (u : BuildUnit) : Path := u.sibling outputExtension

end BuildUnit

end QueryBuild

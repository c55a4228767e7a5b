import QueryBuild.BuildUnit
import QueryBuild.Files.Basic
import QueryBuild.IoError
import QueryBuild.ProcessOutput
import QueryBuild.Query.Validation
/-!
# Who helps with a build

A build asks a validator about texts, has a compiler make artifacts, and has an executor run them.
What a compiler or an executor does to the files is up to them.
-/

namespace QueryBuild

/-- What calling a program led to. -/
structure Reaction where
  /-- How the program ended, or why it could not be started. -/
  result : Except IoError ProcessOutput
  files : FileSystem
  output : ByteArray

namespace Reaction

def refused (fs : FileSystem) (e : IoError) : Reaction :=
  ⟨.error e, fs, .empty⟩

end Reaction

/-- Tells whether a text is a query, and if not, why. -/
abbrev Validator := String → Except String Unit

/-- Makes the artifact at the second path from the program at the first. -/
abbrev Toolchain := Path → Path → FileSystem → Reaction

abbrev Executor := BuildUnit → FileSystem → Reaction

structure Collaborators where
  validator : Validator
  toolchain : Toolchain
  executor : Executor

def Validator.ofDialect (d : Dialect) : Validator := fun sql =>
  (Query.validate d sql).mapError Query.ValidationError.message

end QueryBuild

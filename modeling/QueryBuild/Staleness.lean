import QueryBuild.BuildUnit
import QueryBuild.Files.Access
/-!
# Staleness

Whether an artifact reflects its source. It does only if it is strictly newer, so that an edit at
the very time of a compilation is not missed.
-/

namespace QueryBuild

inductive Staleness where
  | missing
  /-- The artifact was not modified after the source. -/
  | outOfDate
  | upToDate
deriving DecidableEq, Inhabited

namespace Staleness

def text : Staleness → String
  | missing => "missing"
  | outOfDate => "out of date"
  | upToDate => "up to date"

def needsRebuild : Staleness → Bool
  | upToDate => false
  | missing | outOfDate => true

def compare (source artifact : Instant) : Staleness :=
  if source < artifact then upToDate else outOfDate

/-- Looks at the artifact and then at the source. An artifact that cannot be found is missing; any
other error is an error. -/
def check (fs : FileSystem) (source artifact : Path) : Except IoError Staleness :=
  match fs.modified artifact with
  | .error e => if e == .notFound then .ok missing else .error e
  | .ok built => (fs.modified source).map fun edited => compare edited built

def ofUnit (fs : FileSystem) (u : BuildUnit) : Except IoError Staleness :=
  check fs u.source u.artifact

end Staleness

end QueryBuild

import QueryBuild.Build.Plan
import QueryBuild.Build.Step
/-!
# The phases of a build

A phase does its work on one unit after the other in build order and stops at the first failure.
Nothing is executed unless every unit compiled.
-/

namespace QueryBuild

/-- Why and where a phase stopped. -/
structure BuildFailure where
  phase : Phase
  error : BuildError
  /-- What was done before the failure. -/
  completed : List UnitRecord
  /-- The units that cannot be built without the failed one, in build order. -/
  blocked : List String
  /-- Every unit that was not reached: the blocked ones and then the others. -/
  unreached : List String
deriving Inhabited

namespace BuildFailure

def text (f : BuildFailure) : String :=
  f.error.text

def unit (f : BuildFailure) : Option String :=
  f.error.unit

/-- The diagnostic of a failure lists the units that were not reached. -/
def toDiagnostic (f : BuildFailure) : Diagnostic :=
  { f.error.toDiagnostic with impact := f.unreached }

/-- The failure of a unit before the units that remain. -/
def atUnit (plan : BuildPlan) (phase : Phase) (u : BuildUnit) (error : BuildError)
    (remaining : List BuildUnit) : BuildFailure :=
  let (blocked, others) := plan.dependents u.name remaining
  let blocked := blocked.map BuildUnit.name
  ⟨phase, error, [], blocked, blocked ++ others.map BuildUnit.name⟩

def after (records : List UnitRecord) (f : BuildFailure) : BuildFailure :=
  { f with completed := records ++ f.completed }

end BuildFailure

/-- What a build led to: the records of what was done or a failure, the files, and all that
happened on the way. -/
structure BuildResult where
  outcome : Except BuildFailure (List UnitRecord)
  files : FileSystem
  events : List Event

namespace BuildResult

/-- The result with more records and events in front. -/
def after (records : List UnitRecord) (events : List Event) (r : BuildResult) : BuildResult where
  outcome :=
    match r.outcome with
    | .ok later => .ok (records ++ later)
    | .error failure => .error (failure.after records)
  files := r.files
  events := events ++ r.events

end BuildResult

namespace BuildPlan

/-- Does one piece of work on units, up to the first failure. -/
def phase (plan : BuildPlan) (phase : Phase) (step : BuildUnit → FileSystem → Step UnitRecord) :
    List BuildUnit → FileSystem → BuildResult
  | [], fs => ⟨.ok [], fs, []⟩
  | u :: units, fs =>
    let done := step u fs
    match done.result with
    | .error e => ⟨.error (.atUnit plan phase u e units), done.files, done.events⟩
    | .ok record =>
      (plan.phase phase step units done.files).after [record]
        (done.events ++ [.finished phase record])

/-- Compiles every unit whose artifact is out of date, or every unit by force. -/
def compile (plan : BuildPlan) (help : Collaborators) (force : Bool) (fs : FileSystem) :
    BuildResult :=
  plan.phase .compile (BuildUnit.compile help force) plan.order fs

def run (plan : BuildPlan) (help : Collaborators) (fs : FileSystem) : BuildResult :=
  plan.phase .run (BuildUnit.run help) plan.order fs

def build (plan : BuildPlan) (help : Collaborators) (force : Bool) (fs : FileSystem) :
    BuildResult :=
  let compiled := plan.compile help force fs
  match compiled.outcome with
  | .error _ => compiled
  | .ok records => (plan.run help compiled.files).after records compiled.events

end BuildPlan

end QueryBuild

import QueryBuild.Graph.Reach
import QueryBuild.UnitGraph
/-!
# Build plans

The units of a directory together with an order in which they can be built. A plan exists only if
all units can be put in order.
-/

namespace QueryBuild

structure BuildPlan where
  discovered : UnitGraph
  /-- Every unit, each one behind what it depends on. -/
  order : List BuildUnit

namespace BuildPlan

def ofGraph (g : UnitGraph) : Except BuildError BuildPlan :=
  match g.buildOrder with
  | .error e => .error (.unordered e)
  | .ok order => .ok ⟨g, order⟩

/-- The plan of the directory at a path, linked by the names that an extractor gives, and the
sources that were left out of it. -/
def resolveWith (extract : Extractor) (fs : FileSystem) (path : Path) :
    List Path × Except BuildError BuildPlan :=
  let (skipped, found) := UnitGraph.discoverWith extract fs path
  match found with
  | .error e => (skipped, .error (.unordered e))
  | .ok g => (skipped, ofGraph g)

/-- The plan of the directory at a path, linked by the CSV files that its units name. -/
def resolve (fs : FileSystem) (path : Path) : List Path × Except BuildError BuildPlan :=
  resolveWith Reference.names fs path

def directory (p : BuildPlan) : Path :=
  p.discovered.directory

/-- The names of the units in build order. -/
def names (p : BuildPlan) : List String :=
  p.order.map BuildUnit.name

def dependencies (p : BuildPlan) (u : BuildUnit) : List String :=
  p.discovered.graph.parents u.name

/-- A unit and all that it needs, in build order; none if no unit has the name. -/
def targetOrder (p : BuildPlan) (target : String) : Option (List BuildUnit) :=
  match p.discovered.unit? target with
  | none => none
  | some _ =>
    let wanted := target :: p.discovered.graph.allDependencies target
    some (p.order.filter fun u => wanted.contains u.name)

/-- Splits units into those that cannot be built without a unit and the others. -/
def dependents (p : BuildPlan) (unit : String) (units : List BuildUnit) :
    List BuildUnit × List BuildUnit :=
  let needing := p.discovered.graph.allDependents unit
  units.partition fun u => needing.contains u.name

end BuildPlan

end QueryBuild

import QueryBuild.BuildError
import QueryBuild.BuildUnit
import QueryBuild.Digest
import QueryBuild.Files.Access
import QueryBuild.Graph.Order
import QueryBuild.Reference
/-!
# The units of a directory

Every source in a directory is a unit. A unit depends on the other units whose output it names;
names that belong to no unit are taken as files from elsewhere.
-/

namespace QueryBuild

namespace BuildUnit

def sourceText (u : BuildUnit) (fs : FileSystem) : Except IoError String :=
  fs.readText u.source

def sourceDigest (u : BuildUnit) (fs : FileSystem) : Except IoError String :=
  (fs.read u.source).map Digest.sha256Hex

end BuildUnit

/-- Cuts the bytes of a name at the last dot, as paths do. -/
def FileName.split (name : FileName) : FileName × Option FileName :=
  Path.splitName '.'.toUInt8 name

/-- Whether a name ends in the extension of sources, in letters of either case. -/
def FileName.isSource (name : FileName) : Bool :=
  match name.split.2.bind FileName.text? with
  | some extension => extension.map Char.toLower == BuildUnit.sourceExtension
  | none => false

/-- Tells the names of the units that a text refers to. -/
abbrev Extractor := String → List String

/-- The units of a directory and the dependencies between them. -/
structure UnitGraph where
  directory : Path
  /-- The units in the order of their file names. -/
  units : List BuildUnit
  graph : Graph

namespace UnitGraph

/-- What a look at the names of a directory gives. -/
structure Scan where
  units : List BuildUnit
  /-- The sources whose names are no text; they are left out. -/
  skipped : List Path
  /-- The first name that two sources share. -/
  clash : Option GraphError

/-- Looks at the names of regular files in their order, up to the first clash. -/
def scan (directory : Path) (units : List BuildUnit) : List FileName → Scan
  | [] => ⟨units, [], none⟩
  | name :: names =>
    if name.isSource then
      let path := directory.join name.shown
      match name.split.1.text? with
      | none =>
        let rest := scan directory units names
        { rest with skipped := path :: rest.skipped }
      | some stem =>
        match units.find? fun u => u.name == stem with
        | some known => ⟨units, [], some (.duplicateUnit stem known.source path)⟩
        | none => scan directory (units ++ [BuildUnit.ofSource stem path]) names
    else scan directory units names

def link (extract : Extractor) (g : Graph) (u : BuildUnit) (sql : String) : Graph :=
  (extract sql).foldl (fun g reference => g.addEdge u.name reference) g

def linkAll (extract : Extractor) (fs : FileSystem) (g : Graph) :
    List BuildUnit → Except GraphError Graph
  | [] => .ok g
  | u :: units =>
    match u.sourceText fs with
    | .error e => .error (.unreadable u.source e)
    | .ok sql => linkAll extract fs (link extract g u sql) units

/-- The names of the regular files in a directory. -/
def fileNames (fs : FileSystem) (location : Location) : List FileName :=
  (fs.listDirectory location).filterMap fun (name, entry) =>
    if entry.isFile then some name else none

def ofScan (extract : Extractor) (fs : FileSystem) (asked directory : Path) (found : Scan) :
    Except GraphError UnitGraph :=
  match found.clash with
  | some e => .error e
  | none =>
    if found.units.isEmpty then .error (.noUnits asked)
    else
      -- All units are nodes before a text is read, so a unit may name one that comes after it.
      let nodes := Graph.ofEdges (found.units.map BuildUnit.name) []
      (linkAll extract fs nodes found.units).map fun graph => ⟨directory, found.units, graph⟩

/-- The units of the directory at a path, linked by the names that an extractor gives, and the
sources that were left out. -/
def discoverWith (extract : Extractor) (fs : FileSystem) (path : Path) :
    List Path × Except GraphError UnitGraph :=
  match fs.canonicalize path with
  | .error e => ([], .error (.unreadable path e))
  | .ok location =>
    let found := scan location.path [] (fileNames fs location)
    (found.skipped, ofScan extract fs path location.path found)

/-- The units of the directory at a path, linked by the CSV files that they name. -/
def discover (fs : FileSystem) (path : Path) : List Path × Except GraphError UnitGraph :=
  discoverWith Reference.names fs path

def unit? (g : UnitGraph) (name : String) : Option BuildUnit :=
  g.units.find? fun u => u.name == name

/-- The units in an order in which each one stands behind what it depends on. -/
def buildOrder (g : UnitGraph) : Except GraphError (List BuildUnit) :=
  match g.graph.resolveOrder with
  | .error cycle => .error (.cyclic cycle)
  | .ok names => .ok (names.filterMap g.unit?)

end UnitGraph

end QueryBuild

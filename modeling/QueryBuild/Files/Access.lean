import QueryBuild.Files.Resolve
/-!
# Reading and writing files

What programs do with files: look at them, read them, write them and list directories.
-/

namespace QueryBuild.FileSystem

def modified (fs : FileSystem) (path : Path) : Except IoError Instant :=
  (fs.find path).map fun found => found.2.modified

def isFile (fs : FileSystem) (path : Path) : Bool :=
  match fs.find path with
  | .ok (_, entry) => entry.isFile
  | .error _ => false

def read (fs : FileSystem) (path : Path) : Except IoError ByteArray :=
  match fs.find path with
  | .error e => .error e
  | .ok (_, .file contents _ _) => .ok contents
  | .ok _ => .error .isDirectory

def readText (fs : FileSystem) (path : Path) : Except IoError String :=
  match fs.read path with
  | .error e => .error e
  | .ok contents =>
    match String.fromUTF8? contents with
    | some text => .ok text
    | none => .error .invalidText

/-- The path without links, `.` and `..`. -/
def canonicalize (fs : FileSystem) (path : Path) : Except IoError Location :=
  (fs.find path).map Prod.fst

/-- Puts a new entry into its directory, which is modified by that. -/
def create (fs : FileSystem) (location : Location) (entry : Entry) : FileSystem :=
  let parent := location.dropLast
  let fs := match fs.get? parent with
    | some (.directory _) => if parent.isEmpty then fs else fs.put parent (.directory fs.now)
    | _ => fs
  fs.put location entry

/-- Whether a path can only name a directory. -/
def namesDirectory (path : Path) : Bool :=
  match (Text.splitOn (· == '/') path.text.toList).getLast? with
  | some last => last == [] || last == ['.'] || last == ['.', '.']
  | none => true

/-- Writes a file: an existing one gets new contents, and a missing one is made. -/
def write (fs : FileSystem) (path : Path) (contents : ByteArray) : Except IoError FileSystem :=
  match fs.resolve true path with
  | .error e => .error e
  | .ok ⟨location, none⟩ =>
    if namesDirectory path then .error .isDirectory
    else .ok (fs.create location (.file contents fs.now false))
  | .ok ⟨location, some (.file _ _ executable)⟩ =>
    .ok (fs.put location (.file contents fs.now executable))
  | .ok ⟨_, some _⟩ => .error .isDirectory

def writeText (fs : FileSystem) (path : Path) (text : String) : Except IoError FileSystem :=
  fs.write path text.toUTF8

/-- Writes more bytes at the end of a file; a missing one is made. -/
def append (fs : FileSystem) (path : Path) (contents : ByteArray) : Except IoError FileSystem :=
  match fs.resolve true path with
  | .ok ⟨location, some (.file before _ executable)⟩ =>
    .ok (fs.put location (.file (before ++ contents) fs.now executable))
  | _ => fs.write path contents

def setModified (fs : FileSystem) (path : Path) (time : Instant) : Except IoError FileSystem :=
  (fs.find path).map fun (location, entry) => fs.put location (entry.touch time)

def setExecutable (fs : FileSystem) (path : Path) (executable : Bool) :
    Except IoError FileSystem :=
  (fs.find path).map fun (location, entry) =>
    match entry with
    | .file contents modified _ => fs.put location (.file contents modified executable)
    | _ => fs

/-- Takes away what a path names, with everything below it. -/
def remove (fs : FileSystem) (path : Path) : Except IoError FileSystem :=
  match fs.resolve false path with
  | .error e => .error e
  | .ok ⟨_, none⟩ => .error .notFound
  | .ok ⟨location, some _⟩ =>
    .ok ((fs.put location.dropLast (.directory fs.now)).drop location)

/-- Makes the directories that lead to a location. -/
def makeDirectories (fs : FileSystem) (location : Location) : FileSystem :=
  (List.range location.length).foldl (fun fs n =>
    let parent := location.take (n + 1)
    match fs.get? parent with
    | some _ => fs
    | none => fs.create parent (.directory fs.now)) fs

def makeLink (fs : FileSystem) (location : Location) (target : String) : FileSystem :=
  fs.create location (.link target)

/-- Moves what lies at or below a location to another one. -/
def move (fs : FileSystem) (source target : Location) : FileSystem :=
  let moved := fs.entries.filter fun known => source.isPrefixOf known.1
  let fs := (fs.drop target).drop source
  { fs with
    entries := fs.entries ++
      moved.map fun (known, entry) => (target ++ known.drop source.length, entry) }

/-- The names and entries in the directory at a location, in the order of the names. -/
def listDirectory (fs : FileSystem) (location : Location) : List (FileName × Entry) :=
  let below := fs.entries.filterMap fun (known, entry) =>
    match known.getLast? with
    | some name => if known.dropLast == location then some (name, entry) else none
    | none => none
  below.mergeSort fun a b => a.1.before b.1

end QueryBuild.FileSystem

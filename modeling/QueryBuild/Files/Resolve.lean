import QueryBuild.Files.Basic
import QueryBuild.IoError
import QueryBuild.Path
import QueryBuild.Text.Lossy
/-!
# From paths to locations

A path is followed name by name. Every name but the last one has to lead to a directory, and links
are followed on the way.
-/

namespace QueryBuild

namespace FileSystem

/-- How many links may be followed for one path. -/
def linkLimit : Nat := 40

/-- How many bytes a name may have. -/
def nameLimit : Nat := 255

/-- How many bytes a path may have, with the byte that ends it. -/
def pathLimit : Nat := 4096

/-- The names of a path; a slash at the end stands for the directory itself. -/
def steps (path : String) : List String :=
  let names := ((Text.splitOn (· == '/') path.toList).filter (· != [])).map String.ofList
  if path.toList.getLast? == some '/' && !names.isEmpty then names ++ ["."] else names

def startOf (path : String) (directory : Location) : Location :=
  if path.toList.head? == some '/' then [] else directory

/-- Where a path leads: the location, and the entry unless only the last name is missing. -/
structure Target where
  location : Location
  entry : Option Entry

/-- Follows names from a location; `links` more links may be followed, and a link at the very end
only if `follow` is set. -/
def walk (fs : FileSystem) (follow : Bool) (links : Nat) (here : Location)
    (names : List String) : Except IoError Target :=
  match names with
  | [] => .ok ⟨here, fs.get? here⟩
  | name :: rest =>
    match fs.get? here with
    | some (.directory _) =>
      if name == "." then walk fs follow links here rest
      else if name == ".." then walk fs follow links here.dropLast rest
      else if name.utf8ByteSize > nameLimit then .error .nameTooLong
      else
        let next := here ++ [FileName.ofText name]
        match fs.get? next with
        -- Only the last name may be missing: a file can be made there.
        | none => if rest.isEmpty then .ok ⟨next, none⟩ else .error .notFound
        | some (.link target) =>
          if rest.isEmpty && !follow then .ok ⟨next, some (.link target)⟩
          else
            match links with
            | 0 => .error .linkLoop
            | links + 1 =>
              if target.isEmpty then .error .notFound
              -- A relative link is meant from the directory that it lies in.
              else walk fs follow links (startOf target here) (steps target ++ rest)
        | some _ => walk fs follow links next rest
    | some _ => .error .notDirectory
    | none => .error .notFound
termination_by (links, names.length)

/-- Where a path leads; a link at its end is followed if `follow` is set. -/
def resolve (fs : FileSystem) (follow : Bool) (path : Path) : Except IoError Target :=
  if path.text.toList.contains '\x00' then .error .nulInPath
  else if path.text.isEmpty then .error .notFound
  else if path.text.utf8ByteSize + 1 > pathLimit then .error .nameTooLong
  else fs.walk follow linkLimit (startOf path.text fs.workingDirectory) (steps path.text)

/-- What a path leads to, and where that lies. -/
def find (fs : FileSystem) (path : Path) : Except IoError (Location × Entry) :=
  match fs.resolve true path with
  | .error e => .error e
  | .ok ⟨_, none⟩ => .error .notFound
  | .ok ⟨location, some entry⟩ => .ok (location, entry)

end FileSystem

/-- The text of a name; bytes that are no text are replaced. -/
def FileName.shown (name : FileName) : String :=
  Text.lossy name

def Location.path (location : Location) : Path :=
  if location.isEmpty then ⟨"/"⟩
  else ⟨String.join (location.map fun name => "/" ++ FileName.shown name)⟩

end QueryBuild

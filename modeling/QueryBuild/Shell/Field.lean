import QueryBuild.Files.Access
import QueryBuild.Shell.Pattern
import QueryBuild.Text.Octets
/-!
# Fields

The words of a call are cut into fields where values hold separators, and fields that are patterns
are replaced by the names of the files that they match.
-/

namespace QueryBuild.Shell

/-- A part of a word after everything in it was replaced. -/
inductive Atom where
  /-- A character; whether it was quoted, and whether it comes from a value that may be cut. -/
  | char (c : Char) (quoted divisible : Bool)
  /-- An end of a field; with `keep`, also of an empty one. -/
  | cut (keep : Bool)
  /-- A pair of quotes, which make a field even if nothing is in them. -/
  | quotes
  /-- No arguments at all, which make no field even in quotes. -/
  | absence
deriving DecidableEq, Inhabited

namespace Field

/-- A field that is being put together, in reverse. -/
structure Building where
  done : List (List Marked)
  current : List Marked
  /-- Whether there is a field even if it is empty. -/
  present : Bool
  absent : Bool

def Building.close (b : Building) (keep : Bool) : Building :=
  if keep || !b.current.isEmpty || (b.present && !b.absent) then
    ⟨b.current.reverse :: b.done, [], false, false⟩
  else ⟨b.done, [], false, false⟩

def Building.add (separators : Octets) (b : Building) (atom : Atom) : Building :=
  match atom with
  | .char c quoted divisible =>
    if divisible && separators.contains c then
      -- Blanks make no empty fields between them; other separators do.
      if c == ' ' || c == '\t' || c == '\n' then b.close false
      else b.close true
    else { b with current := (c, quoted) :: b.current }
  | .cut keep =>
    let b := b.close keep
    { b with present := keep }
  | .quotes => { b with present := true }
  | .absence => { b with absent := true }

def ofAtoms (separators : Octets) (atoms : List Atom) : List (List Marked) :=
  let b := atoms.foldl (Building.add separators) ⟨[], [], false, false⟩
  (b.close false).done.reverse

def text (field : List Marked) : Octets :=
  field.map Prod.fst

/-- The characters of a word that is not cut into fields. -/
def whole (atoms : List Atom) : List Marked :=
  atoms.filterMap fun atom =>
    match atom with
    | .char c quoted _ => some (c, quoted)
    | .cut _ => some (' ', true)
    | .quotes | .absence => none

/-- The names in a directory that match a pattern. Names that start with a dot are matched only by
patterns that do. -/
def matching (fs : FileSystem) (directory : Octets) (part : List Marked) : List Octets :=
  let shown := if directory.isEmpty then ['.'] else directory
  match fs.find ⟨Octets.toText shown⟩ with
  | .ok (location, .directory _) =>
    let marks := Pattern.ofField part
    let hidden := part.head?.map Prod.fst == some '.'
    ((fs.listDirectory location).map fun entry => Octets.ofBytes (FileName.bytes entry.1)).filter
      fun name => Pattern.fits marks name && (hidden || name.head? != some '.')
  | _ => []

/-- The paths that match the parts of a pattern below some directories. -/
def below (fs : FileSystem) (starts : List Octets) : List (List Marked) → List Octets
  | [] => starts
  | part :: parts =>
    let last := parts.isEmpty
    let extend (start name : Octets) : Octets :=
      if last then start ++ name else start ++ name ++ ['/']
    let next := if Pattern.isOpen (Pattern.ofField part) then
        starts.flatMap fun start => (matching fs start part).map (extend start)
      else
        (starts.map fun start => extend start (text part)).filter fun path =>
          match fs.resolve false ⟨Octets.toText path⟩ with
          | .ok target => target.entry.isSome
          | .error _ => false
    below fs next parts

/-- The fields that a field stands for: the paths that match it, or itself. -/
def expand (fs : FileSystem) (field : List Marked) : List Octets :=
  if Pattern.isOpen (Pattern.ofField field) then
    let parts := Text.splitOn (fun m : Marked => m.1 == '/') field
    let (starts, parts) := match parts with
      | [] :: rest => ([['/']], rest)
      | parts => ([[]], parts)
    match below fs starts parts with
    | [] => [text field]
    | found => found
  else [text field]

end Field

end QueryBuild.Shell

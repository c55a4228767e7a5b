import QueryBuild.Text.Blank
/-!
# Paths as text

A path is kept as it was written. Its segments are the pieces between slashes; empty segments and
`.` segments after the first position carry no meaning at the end of a path, and everything that
asks for the last component looks past them.

A path is Unicode text. The names in a directory are bytes, so a name that is no text has no path of
its own.
-/

namespace QueryBuild

/-- A path, with its separators as written. -/
structure Path where
  text : String
deriving DecidableEq, Inhabited

namespace Path

def isAbsolute (p : Path) : Bool :=
  p.text.toList.head? == some '/'

/-- A segment that names nothing by itself. -/
def isIdle (segment : List Char) : Bool :=
  segment == [] || segment == ['.']

/-- The segments up to the last one that carries meaning; the first segment always stays. -/
def dropIdleTail : List (List Char) → List (List Char)
  | [] => []
  | first :: rest => first :: Text.dropTail isIdle rest

def segments (p : Path) : List (List Char) :=
  dropIdleTail (Text.splitOn (· == '/') p.text.toList)

/-- The path of some segments; a lone empty segment is the root if the path starts there. -/
def ofSegments (absolute : Bool) (segments : List (List Char)) : Path :=
  match segments with
  | [] => ⟨""⟩
  | [[]] => ⟨if absolute then "/" else ""⟩
  | _ => ⟨String.ofList (List.intercalate ['/'] segments)⟩

/-- The path without its last component; the root and the empty path have no parent. -/
def parent? (p : Path) : Option Path :=
  match p.segments with
  | [] => none
  | [[]] => none
  | [_] => some ⟨""⟩
  | several => some (ofSegments p.isAbsolute (dropIdleTail several.dropLast))

/-- The last component, unless it is `..` or there is none. -/
def fileName? (p : Path) : Option String :=
  match p.segments.getLast? with
  | none => none
  | some last =>
    if last == [] || last == ['.'] || last == ['.', '.'] then none else some (String.ofList last)

/-- A path below another one; an absolute path stands for itself. -/
def join (p : Path) (name : String) : Path :=
  if (Path.mk name).isAbsolute then ⟨name⟩
  else if p.text.isEmpty || p.text.toList.getLast? == some '/' then ⟨p.text ++ name⟩
  else ⟨p.text ++ "/" ++ name⟩

/-- The path with its last component replaced; a path without one is extended. -/
def withFileName (p : Path) (name : String) : Path :=
  match p.fileName? with
  | some _ => (p.parent?.getD p).join name
  | none => p.join name

/-- Cuts a file name at its last dot. A name that is two dots, that has no dot, or whose only dot
leads it is all stem. -/
def splitName {α : Type} [BEq α] (dot : α) (name : List α) : List α × Option (List α) :=
  if name == [dot, dot] then (name, none)
  else
    match name.reverse.span (· != dot) with
    | (_, []) => (name, none)
    | (_, [_]) => (name, none)
    | (after, _ :: before) => (before.reverse, some after.reverse)

def stem? (p : Path) : Option String :=
  p.fileName?.map fun name => String.ofList (splitName '.' name.toList).1

end Path

end QueryBuild

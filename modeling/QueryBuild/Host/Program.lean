import QueryBuild.Host.Tools
import QueryBuild.Shell.State
/-!
# Programs

What a computer does with a file that is to be executed: a tool has a mark in front of its name, a
script names its interpreter in its first line, and nothing else can be executed.
-/

namespace QueryBuild.Host

/-- What a file executes as. -/
inductive Program where
  | tool (name : String)
  /-- A text for an interpreter, which gets an argument if there is one. -/
  | interpreted (interpreter : Octets) (argument : Option Octets)
deriving DecidableEq, Inhabited

namespace Program

def mark : Octets :=
  ['\x7f', 'E', 'L', 'F']

/-- The number of bytes in which the first line of a script has to end. -/
def lineLimit : Nat := 256

/-- Whether a character separates an interpreter from its argument. -/
def isGap (c : Char) : Bool :=
  c == ' ' || c == '\t'

/-- What contents execute as, if they can be executed. -/
def ofContents (contents : Octets) : Option Program :=
  if mark.isPrefixOf contents then some (.tool (Octets.toText (contents.drop mark.length)))
  else
    match contents.take lineLimit with
    | '#' :: '!' :: rest =>
      let line := (rest.takeWhile (· != '\n')).dropWhile isGap
      let interpreter := line.takeWhile fun c => !isGap c
      let argument := Text.dropTail isGap ((line.drop interpreter.length).dropWhile isGap)
      if interpreter.isEmpty then none
      else some (.interpreted interpreter (if argument.isEmpty then none else some argument))
    | _ => none

def contentsAt (fs : FileSystem) (path : Octets) : Except IoError Octets :=
  match fs.find ⟨Octets.toText path⟩ with
  | .error e => .error e
  | .ok (_, .file contents _ true) => .ok (Octets.ofBytes contents)
  | .ok _ => .error .permissionDenied

/-- The program at a path, and the words with which it starts. Interpreters may be scripts
themselves, but not too many of them. -/
def resolve (fs : FileSystem) : Nat → Octets → List Octets → Except IoError (String × List Octets)
  | 0, _, _ => .error .linkLoop
  | depth + 1, path, words =>
    match contentsAt fs path with
    | .error e => .error e
    | .ok contents =>
      match ofContents contents with
      | none => .error .execFormat
      | some (.tool name) => .ok (name, words)
      | some (.interpreted interpreter argument) =>
        resolve fs depth interpreter (interpreter :: argument.toList ++ path :: words.drop 1)

def depthLimit : Nat := 6

def standardPath : Octets :=
  "/bin:/usr/bin".toList

def candidates (searched : Octets) (name : Octets) : List Octets :=
  (Text.splitOn (· == ':') searched).map fun directory =>
    if directory.isEmpty then name
    else if directory.getLast? == some '/' then directory ++ name
    else directory ++ ['/'] ++ name

/-- The first path at which a program can be executed. A file that may not be executed does not
end the search but is remembered. -/
def search (fs : FileSystem) (denied : Bool) : List Octets → Except IoError Octets
  | [] => .error (if denied then .permissionDenied else .notFound)
  | path :: paths =>
    match contentsAt fs path with
    | .ok _ => .ok path
    | .error e => search fs (denied || e == .permissionDenied) paths

/-- The path of a program: a name with a slash is a path, any other is looked for. -/
def locate (fs : FileSystem) (searched : Octets) (name : Octets) : Except IoError Octets :=
  if name.contains '/' then .ok name
  else if name.isEmpty then .error .notFound
  else search fs false (candidates searched name)

end Program

end QueryBuild.Host

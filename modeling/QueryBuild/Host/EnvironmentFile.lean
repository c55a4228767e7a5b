import QueryBuild.Files.Access
import QueryBuild.Text.Numeral
/-!
# Variables in a file

A file with one variable a line adds to the environment. A line goes on while a quote is open;
values may name other variables. The first line that cannot be read ends the file, and a variable
that exists already keeps its value.
-/

namespace QueryBuild.Host

abbrev Environment := List (String × String)

namespace EnvironmentFile

def fileName : String := ".env"

inductive LineState where
  | plain
  | blank
  | escaped
  | single
  | singleEscaped
  | double
  | doubleEscaped
  | comment
deriving DecidableEq, Inhabited

def LineState.outside (c : Char) : LineState :=
  match c with
  | '\\' => escaped
  | '"' => double
  | '\'' => single
  | _ => plain

def LineState.next (state : LineState) (c : Char) : LineState :=
  match state with
  | comment => comment
  | blank => if c == '#' then comment else outside c
  | plain => if Text.isBlank c && c != '\n' && c != '\r' then blank else outside c
  | escaped => plain
  | single => if c == '\\' then singleEscaped else if c == '\'' then plain else single
  | singleEscaped => single
  | double => if c == '\\' then doubleEscaped else if c == '"' then plain else double
  | doubleEscaped => double

/-- The state after a line, and the line up to a comment. -/
def scan (state : LineState) : List Char → LineState × List Char
  | [] => (state, [])
  | c :: rest =>
    let after := state.next c
    if after == .comment then (after, [])
    else
      let (last, kept) := scan after rest
      (last, c :: kept)

/-- Puts lines together while a quote or an escape is open; nothing stands for a line that cannot
be read. -/
def join (before : List Char) (state : LineState) :
    List (Option (List Char)) → List (Option (List Char))
  | [] => if state == .plain then [] else [none]
  | none :: _ => [none]
  | some line :: rest =>
    if ((before ++ line).dropWhile Text.isBlank).head? == some '#' then
      join [] .plain rest
    else
      let (after, kept) := scan state line
      match after with
      | .plain => some (before ++ Text.dropLineEnd line) :: join [] .plain rest
      | .comment => some (before ++ kept) :: join [] .plain rest
      | _ => join (before ++ line) after rest

/-- Where a character of a value stands; `quoted` says whether double quotes are open. -/
inductive ValueState where
  | plain
  | single
  | double
  | escaped (quoted : Bool)
  | naming (quoted : Bool) (name : List Char)
  | braced (quoted : Bool) (name : List Char)
  | ended
deriving DecidableEq, Inhabited

/-- Inside or outside of double quotes. -/
def ValueState.resume (quoted : Bool) : ValueState :=
  if quoted then double else plain

/-- The value of a variable; one that is not set is empty. -/
def expand (environment : Environment) (name : List Char) : List Char :=
  ((environment.lookup (String.ofList name)).getD "").toList

def unescape (c : Char) : Option Char :=
  if c == 'n' then some '\n'
  else if c == '\\' || c == '\'' || c == '"' || c == '$' || c == ' ' then some c
  else none

/-- The value with which a state ends, if it may end there. -/
def finish (environment : Environment) (state : ValueState) (value : List Char) :
    Option (List Char) :=
  match state with
  | .plain | .ended | .escaped false => some value
  | .naming false name => some (value ++ expand environment name)
  | _ => none

/-- Reads a value behind what was read of it. -/
def readValue (environment : Environment) (state : ValueState) (value : List Char) :
    List Char → Option (List Char)
  | [] => finish environment state value
  | c :: rest =>
    match state with
    | .ended =>
      if c == ' ' || c == '\t' then readValue environment .ended value rest
      else if c == '#' then some value
      else none
    | .escaped quoted =>
      match unescape c with
      | some c => readValue environment (.resume quoted) (value ++ [c]) rest
      | none => none
    | .single =>
      if c == '\'' then readValue environment .plain value rest
      else readValue environment .single (value ++ [c]) rest
    | .naming quoted name =>
      if Text.isLetterOrNumeral c then
        readValue environment (.naming quoted (name ++ [c])) value rest
      else if c == '\x7b' && name.isEmpty then
        readValue environment (.braced quoted []) value rest
      else
        let value := value ++ expand environment name
        if c == '$' then readValue environment (.naming quoted []) value rest
        else readValue environment (.resume quoted) (value ++ [c]) rest
    | .braced quoted name =>
      if c != '\x7d' then
        readValue environment (.braced quoted (name ++ [c])) value rest
      else readValue environment (.resume quoted) (value ++ expand environment name) rest
    | .double =>
      if c == '$' then readValue environment (.naming true []) value rest
      else if c == '"' then readValue environment .plain value rest
      else if c == '\\' then readValue environment (.escaped true) value rest
      else readValue environment .double (value ++ [c]) rest
    | .plain =>
      if c == '$' then readValue environment (.naming false []) value rest
      else if c == '\'' then readValue environment .single value rest
      else if c == '"' then readValue environment .double value rest
      else if c == '\\' then readValue environment (.escaped false) value rest
      else if c == ' ' || c == '\t' then readValue environment .ended value rest
      else readValue environment .plain (value ++ [c]) rest

def skipBlank (cs : List Char) : List Char :=
  cs.dropWhile Text.isBlank

def startsName (c : Char) : Bool :=
  c.isAlpha || c == '_'

def continuesName (c : Char) : Bool :=
  c.isAlphanum || c == '_' || c == '.'

/-- A name with what stands behind it and behind blanks. -/
def readName (cs : List Char) : Option (List Char × List Char) :=
  match cs with
  | [] => none
  | c :: _ =>
    if startsName c then some (cs.takeWhile continuesName, skipBlank (cs.dropWhile continuesName))
    else none

def readEqual (cs : List Char) : Option (List Char) :=
  match cs with
  | '=' :: rest => some rest
  | _ => none

/-- A name with what stands behind its equals sign; the word `export` may stand in front. -/
def readKey (cs : List Char) : Option (List Char × List Char) := do
  let (name, rest) ← readName cs
  match readEqual rest with
  | some rest => return (name, rest)
  | none =>
    if name == "export".toList then
      let (name, rest) ← readName rest
      return (name, ← readEqual rest)
    else none

/-- Whether nothing but a comment follows. -/
def nothingLeft (cs : List Char) : Bool :=
  cs.isEmpty || cs.head? == some '#'

/-- The variable of a line: none if the line is empty, and no answer if it cannot be read. -/
def readLine (environment : Environment) (line : List Char) : Option (Option (String × String)) :=
  let line := skipBlank (Text.dropTail Text.isBlank line)
  if nothingLeft line then some none
  else do
    let (name, rest) ← readKey line
    let rest := skipBlank rest
    let value ← if nothingLeft rest then some [] else readValue environment .plain [] rest
    return some (String.ofList name, String.ofList value)

def addLines (environment : Environment) : List (Option (List Char)) → Environment
  | [] | none :: _ => environment
  | some line :: rest =>
    match readLine environment line with
    | none => environment
    | some none => addLines environment rest
    | some (some (name, value)) =>
      if (environment.lookup name).isSome then addLines environment rest
      else addLines (environment ++ [(name, value)]) rest

/-- The bytes that may mark a text as UTF-8. -/
def mark : List UInt8 := [0xEF, 0xBB, 0xBF]

/-- The lines of bytes; nothing stands for one that is no text. -/
def linesOf (contents : List UInt8) : List (Option (List Char)) :=
  let contents := (Text.stripFront? mark contents).getD contents
  (Text.splitAfter (· == 10) contents).map fun line => (FileName.text? line).map String.toList

def find (fs : FileSystem) : List Location → Option Path
  | [] => none
  | location :: rest =>
    let path := location.path.join fileName
    match fs.find path with
    | .ok (_, entry) => if entry.isFile then some path else find fs rest
    | .error e => if e == .notFound then find fs rest else none

/-- A location and all that lie above it. -/
def upwards (location : Location) : List Location :=
  (List.range (location.length + 1)).reverse.map location.take

/-- Adds the variables of the nearest file in or above the working directory. -/
def load (fs : FileSystem) (environment : Environment) : Environment :=
  match find fs (upwards fs.workingDirectory) with
  | none => environment
  | some path =>
    match fs.read path with
    | .error _ => environment
    | .ok contents => addLines environment (join [] .plain (linesOf contents.toList))

end EnvironmentFile

end QueryBuild.Host

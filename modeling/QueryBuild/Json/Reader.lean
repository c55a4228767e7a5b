import QueryBuild.Decimal.Shortest
import QueryBuild.Mismatch
/-!
# Reading JSON text

The pieces from which a JSON text is read: blanks, words, strings and numbers. A failure keeps what
was not read yet, so that the place of the failure can be told from the whole text.
-/

namespace QueryBuild.Json

inductive Fault where
  | endInList
  | endInObject
  | endInString
  | endInValue
  | noColon
  | noCommaOrListEnd
  | noCommaOrObjectEnd
  | unknownWord
  | noValue
  | invalidEscape
  | invalidNumber
  | numberOutOfRange
  | controlCharacter
  | keyNotString
  | loneSurrogate
  | unfinishedSurrogate
  | trailingComma
  | trailingCharacters
  | mismatch (cause : Mismatch)
deriving DecidableEq, Inhabited

def Fault.text : Fault → String
  | endInList => "EOF while parsing a list"
  | endInObject => "EOF while parsing an object"
  | endInString => "EOF while parsing a string"
  | endInValue => "EOF while parsing a value"
  | noColon => "expected \x60:\x60"
  | noCommaOrListEnd => "expected \x60,\x60 or \x60]\x60"
  | noCommaOrObjectEnd => "expected \x60,\x60 or \x60\x7d\x60"
  | unknownWord => "expected ident"
  | noValue => "expected value"
  | invalidEscape => "invalid escape"
  | invalidNumber => "invalid number"
  | numberOutOfRange => "number out of range"
  | controlCharacter => "control character (\\u0000-\\u001F) found while parsing a string"
  | keyNotString => "key must be a string"
  | loneSurrogate => "lone leading surrogate in hex escape"
  | unfinishedSurrogate => "unexpected end of hex escape"
  | trailingComma => "trailing comma"
  | trailingCharacters => "trailing characters"
  | mismatch cause => cause.text

/-- A fault, what was left to read when it was met, and how many bytes of that it concerns. -/
structure Failure where
  fault : Fault
  rest : List Char
  ahead : Nat
deriving DecidableEq, Inhabited

/-- A line, counted from one, and the number of bytes in front of a place in it. -/
structure Place where
  line : Nat
  column : Nat
deriving DecidableEq, Inhabited

namespace Place

def start : Place :=
  ⟨1, 0⟩

def after (p : Place) (c : Char) : Place :=
  if c == '\n' then ⟨p.line + 1, 0⟩ else ⟨p.line, p.column + c.utf8Size⟩

/-- The place some bytes further on, but not beyond the end of the text. -/
def afterBytes (p : Place) : Nat → List Char → Place
  | 0, _ => p
  | _, [] => p
  | n + 1, c :: cs =>
    if c.utf8Size ≤ n + 1 then (p.after c).afterBytes (n + 1 - c.utf8Size) cs
    else ⟨p.line, p.column + (n + 1)⟩

end Place

def Failure.place (f : Failure) (text : List Char) : Place :=
  let read := text.take (text.length - f.rest.length)
  (read.foldl Place.after Place.start).afterBytes f.ahead f.rest

def Failure.message (f : Failure) (text : String) : String :=
  let place := f.place text.toList
  f.fault.text ++ " at line " ++ toString place.line ++ " column " ++ toString place.column

/-- A step that reads from the front of a text. -/
abbrev Reader := StateT (List Char) (Except Failure)

namespace Reader

def failHere {α : Type} (fault : Fault) : Reader α := fun rest =>
  .error ⟨fault, rest, 0⟩

def failNext {α : Type} (fault : Fault) : Reader α := fun rest =>
  .error ⟨fault, rest, 1⟩

def peek : Reader (Option Char) := fun rest =>
  .ok (rest.head?, rest)

def skip : Reader Unit := fun rest =>
  .ok ((), rest.tail)

/-- The characters that may stand between the pieces of a text. -/
def isSpace (c : Char) : Bool :=
  c == ' ' || c == '\n' || c == '\t' || c == '\r'

/-- The next character that is no space. -/
def peekSolid : Reader (Option Char) := fun rest =>
  let rest := rest.dropWhile isSpace
  .ok (rest.head?, rest)

def peekValue : Reader Char := do
  match ← peekSolid with
  | some c => pure c
  | none => failNext .endInValue

/-- Reads the remaining characters of a word. -/
def word : List Char → Reader Unit
  | [] => pure ()
  | c :: cs => do
    match ← peek with
    | none => failHere .endInValue
    | some x =>
      skip
      if x == c then word cs else failHere .unknownWord

def hexValue? (c : Char) : Option Nat :=
  if c.isDigit then some (c.toNat - 48)
  else if 'a' ≤ c ∧ c ≤ 'f' then some (c.toNat - 87)
  else if 'A' ≤ c ∧ c ≤ 'F' then some (c.toNat - 55)
  else none

/-- The number that the first four characters write in hexadecimal digits. -/
def hexQuad (rest : List Char) : Except Failure Nat :=
  match (rest.take 4).mapM hexValue? with
  | some [a, b, c, d] => .ok (((a * 16 + b) * 16 + c) * 16 + d)
  | _ =>
    if (String.ofList rest).utf8ByteSize < 4 then .error ⟨.endInString, [], 0⟩
    else .error ⟨.invalidEscape, rest, 4⟩

/-- The character that a letter after a backslash stands for. -/
def escaped? (c : Char) : Option Char :=
  match c with
  | '"' => some '"'
  | '\\' => some '\\'
  | '/' => some '/'
  | 'b' => some '\x08'
  | 'f' => some '\x0c'
  | 'n' => some '\n'
  | 'r' => some '\r'
  | 't' => some '\t'
  | _ => none

/-- Whether a number is the first half of a pair that stands for one character. -/
def isHighSurrogate (n : Nat) : Bool :=
  0xD800 ≤ n && n ≤ 0xDBFF

def isLowSurrogate (n : Nat) : Bool :=
  0xDC00 ≤ n && n ≤ 0xDFFF

/-- The second half of a pair, with its escape. -/
def lowSurrogate (rest : List Char) : Except Failure Nat :=
  match rest with
  | [] => .error ⟨.endInString, [], 0⟩
  | '\\' :: 'u' :: digits =>
    match hexQuad digits with
    | .error failure => .error failure
    | .ok low =>
      if isLowSurrogate low then .ok low else .error ⟨.loneSurrogate, digits.drop 4, 0⟩
  | ['\\'] => .error ⟨.endInString, [], 0⟩
  | '\\' :: other => .error ⟨.unfinishedSurrogate, other, 1⟩
  | other => .error ⟨.unfinishedSurrogate, other, 1⟩

def consRead (c : Char) : Except Failure (List Char × List Char) →
    Except Failure (List Char × List Char)
  | .ok (cs, rest) => .ok (c :: cs, rest)
  | .error failure => .error failure

/-- The characters of a string up to its closing quote, and what follows the quote. -/
def stringBody : List Char → Except Failure (List Char × List Char)
  | [] => .error ⟨.endInString, [], 0⟩
  | '"' :: rest => .ok ([], rest)
  | ['\\'] => .error ⟨.endInString, [], 0⟩
  | '\\' :: 'u' :: digits =>
    match hexQuad digits with
    | .error failure => .error failure
    | .ok n =>
      if isLowSurrogate n then .error ⟨.loneSurrogate, digits.drop 4, 0⟩
      else if isHighSurrogate n then
        match lowSurrogate (digits.drop 4) with
        | .error failure => .error failure
        | .ok low =>
          consRead (Char.ofNat ((n - 0xD800) * 0x400 + (low - 0xDC00) + 0x10000))
            (stringBody (digits.drop 10))
      else consRead (Char.ofNat n) (stringBody (digits.drop 4))
  | '\\' :: c :: rest =>
    match escaped? c with
    | some x => consRead x (stringBody rest)
    | none => .error ⟨.invalidEscape, rest, 0⟩
  | c :: rest =>
    if c.toNat < 0x20 then .error ⟨.controlCharacter, c :: rest, 1⟩
    else consRead c (stringBody rest)
termination_by text => text.length
decreasing_by
  all_goals simp only [List.length_cons, List.length_drop]; omega

/-- What follows a string that is not wanted; its escapes need not make sense together. -/
def stringRest : List Char → Except Failure (List Char)
  | [] => .error ⟨.endInString, [], 0⟩
  | '"' :: rest => .ok rest
  | ['\\'] => .error ⟨.endInString, [], 0⟩
  | '\\' :: 'u' :: digits =>
    match hexQuad digits with
    | .error failure => .error failure
    | .ok _ => stringRest (digits.drop 4)
  | '\\' :: c :: rest =>
    if (escaped? c).isSome then stringRest rest else .error ⟨.invalidEscape, rest, 0⟩
  | c :: rest =>
    if c.toNat < 0x20 then .error ⟨.controlCharacter, c :: rest, 0⟩ else stringRest rest
termination_by text => text.length
decreasing_by
  all_goals simp only [List.length_cons, List.length_drop]; omega

def string : Reader String := fun rest =>
  match stringBody rest with
  | .ok (cs, rest) => .ok (String.ofList cs, rest)
  | .error failure => .error failure

def skipString : Reader Unit := fun rest =>
  match stringRest rest with
  | .ok rest => .ok ((), rest)
  | .error failure => .error failure

def digits : Reader (List Char) := fun rest =>
  .ok (rest.takeWhile Char.isDigit, rest.dropWhile Char.isDigit)

end Reader

end QueryBuild.Json

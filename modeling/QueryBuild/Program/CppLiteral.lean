import QueryBuild.Text.Blank
/-!
# Text as C++ string literals

A text becomes one literal for each of its lines; the compiler concatenates adjacent literals.
Escapes have a fixed length, so what follows one never extends it.
-/

namespace QueryBuild.CppLiteral

def octalDigit (n : Nat) : Char :=
  Char.ofNat (48 + n % 8)

def octalEscape (n : Nat) : List Char :=
  ['\\', octalDigit (n / 64), octalDigit (n / 8), octalDigit n]

def isControl (c : Char) : Bool :=
  c.toNat < 32 || c.toNat == 127

/-- A character as it stands in a literal. A question mark is escaped, so that no two of them can
start a trigraph. -/
def escape (c : Char) : List Char :=
  match c with
  | '\\' => ['\\', '\\']
  | '"' => ['\\', '"']
  | '\n' => ['\\', 'n']
  | '\r' => ['\\', 'r']
  | '\t' => ['\\', 't']
  | '?' => ['\\', '?']
  | c => if isControl c then octalEscape c.toNat else [c]

def encodeLine (line : List Char) : List Char :=
  '"' :: line.flatMap escape ++ ['"']

/-- What stands between two literals. -/
def separator : List Char :=
  "\n        ".toList

def encodeChars (text : List Char) : List Char :=
  match Text.splitAfter (· == '\n') text with
  | [] => encodeLine []
  | lines => List.intercalate separator (lines.map encodeLine)

/-- The adjacent literals of a text, one for each line. -/
def encode (text : String) : String :=
  String.ofList (encodeChars text.toList)

end QueryBuild.CppLiteral

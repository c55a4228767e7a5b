import QueryBuild.Toml.Reader
/-!
# TOML strings

Basic strings with escapes and literal strings without, each on one line or on several lines.
-/

namespace QueryBuild.Toml.Reader

/-- Characters that never end a string and are no line ends. -/
def isPlain (c : Char) : Bool :=
  c == '\t' || (0x20 ≤ c.toNat && c.toNat != 0x7F)

/-- Characters of a basic string that stand for themselves. -/
def isBasic (c : Char) : Bool :=
  isPlain c && c != '"' && c != '\\'

def isLiteral (c : Char) : Bool :=
  isPlain c && c != '\''

/-- Blanks within a line. -/
def isBlank (c : Char) : Bool :=
  c == ' ' || c == '\t'

def blanks : Reader Unit := do
  let _ ← takeWhile isBlank

def newline : Reader Unit :=
  orElse (do let _ ← char '\n') (literal ['\r', '\n'])

def hexValue (c : Char) : Nat :=
  if c.isDigit then c.toNat - 48
  else if 'a' ≤ c then c.toNat - 87
  else c.toNat - 55

def isHexDigit (c : Char) : Bool :=
  c.isDigit || ('a' ≤ c && c ≤ 'f') || ('A' ≤ c && c ≤ 'F')

def hexNumber (digits : List Char) : Nat :=
  digits.foldl (fun n c => n * 16 + hexValue c) 0

/-- Reads a character that is given by the hexadecimal digits of its code point. -/
def hexChar (n : Nat) : Reader Char :=
  convert (exactly n isHexDigit) fun digits =>
    let code := hexNumber digits
    if code.isValidChar then .ok (Char.ofNat code) else .error (some .outOfRange)

/-- Fails behind a character that escapes nothing. -/
def unknownEscape : Reader Char := do
  let _ ← optional (satisfy fun c => c.toNat < 0x80)
  "bfnrtuU\\\"".toList.foldl (fun r c => r.expectingChar c) (named "escape sequence" fail)

def escapeRest : Reader Char := do
  match ← next? with
  | none => fail
  | some 'b' => let _ ← char 'b'; pure '\x08'
  | some 'f' => let _ ← char 'f'; pure '\x0c'
  | some 'n' => let _ ← char 'n'; pure '\n'
  | some 'r' => let _ ← char 'r'; pure '\r'
  | some 't' => let _ ← char 't'; pure '\t'
  | some '\\' => char '\\'
  | some '"' => char '"'
  | some 'u' =>
    let _ ← char 'u'
    commit (named "unicode 4-digit hex code" (hexChar 4))
  | some 'U' =>
    let _ ← char 'U'
    commit (named "unicode 8-digit hex code" (hexChar 8))
  | some _ => commit unknownEscape

def escape : Reader Char := do
  let _ ← char '\\'
  escapeRest

/-- Reads a basic string on one line. -/
def basicString : Reader String := do
  let _ ← char '"'
  let cs ← many (orElse (satisfy isBasic) escape)
  let _ ← commit (named "basic string" (char '"'))
  return String.ofList cs

def literalString : Reader String :=
  named "literal string" do
    let _ ← char '\''
    let cs ← takeWhile isLiteral
    let _ ← commit (char '\'')
    return String.ofList cs

/-- Three quotes. -/
def basicFence : List Char := ['"', '"', '"']

def literalFence : List Char := ['\'', '\'', '\'']

/-- A backslash at the end of a line, with all blanks and line ends after it. -/
def escapedNewline : Reader Unit := do
  let _ ← several do
    let _ ← char '\\'
    blanks
    newline
    let _ ← many (orElse newline do let _ ← satisfy isBlank)

def basicPiece : Reader (List Char) :=
  orElse (do return [← satisfy isBasic]) <|
  orElse (do escapedNewline; return []) <|
  orElse (do return [← escape]) <|
  do newline; return ['\n']

def literalPiece : Reader (List Char) :=
  orElse (do return [← satisfy isLiteral]) (do newline; return ['\n'])

/-- Reads two quotes or one in front of something else. -/
def quotesBefore {α : Type} (quote : Char) (after : Reader α) : Reader (List Char) :=
  orElse
    (do literal [quote, quote]; let _ ← peek after; return [quote, quote])
    (do let _ ← char quote; let _ ← peek after; return [quote])

/-- Reads the text of a string on several lines up to its closing fence; up to two quotes may stand
anywhere in it, also right in front of the fence. -/
def fencedBody (quote : Char) (piece : Reader (List Char)) : Reader (List Char) := do
  let first ← many piece
  let groups ← many do
    let quotes ← quotesBefore quote piece
    return quotes ++ (← several piece).flatten
  let last ← optional (quotesBefore quote (literal [quote, quote, quote]))
  return first.flatten ++ groups.flatten ++ last.getD []

def basicLines : Reader String :=
  named "multiline basic string" do
    literal basicFence
    let _ ← optional newline
    let cs ← commit (fencedBody '"' basicPiece)
    commit (literal basicFence)
    return String.ofList cs

def literalLines : Reader String :=
  named "multiline literal string" do
    literal literalFence
    let _ ← optional newline
    let cs ← commit (fencedBody '\'' literalPiece)
    commit (literal literalFence)
    return String.ofList cs

def anyString : Reader String :=
  orElse basicLines <| orElse basicString <| orElse literalLines literalString

end QueryBuild.Toml.Reader

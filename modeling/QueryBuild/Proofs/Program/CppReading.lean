import QueryBuild.Text.Blank
/-!
# How C++ reads a text

A C++ text is read in phases: trigraphs are replaced, lines that end in a backslash are joined to
the next line, the text is cut into tokens, escapes in string literals are replaced, and adjacent
string literals are put together. Tokens are found by one pass over the characters, which always
takes the longest token.

What generated programs have no use for is refused: block comments, character literals, raw, prefixed
and suffixed string literals, numbers with more than digits and letters, alternative tokens, escapes
by hexadecimal numbers, and characters outside ASCII anywhere but in literals and comments.
-/

namespace QueryBuild.Cpp

/-! ### Characters -/

/-- What two question marks and a character stand for. -/
def trigraph? (c : Char) : Option Char :=
  [('=', '#'), ('/', '\\'), ('\'', '^'), ('(', '['), (')', ']'), ('!', '|'), ('<', '\x7b'),
    ('>', '\x7d'), ('-', '~')].lookup c

/-- A text with its trigraphs replaced. -/
def replaceTrigraphs : List Char → List Char
  | '?' :: '?' :: c :: rest =>
    match trigraph? c with
    | some meant => meant :: replaceTrigraphs rest
    | none => '?' :: replaceTrigraphs ('?' :: c :: rest)
  | c :: rest => c :: replaceTrigraphs rest
  | [] => []

/-- A text with its continued lines joined. -/
def joinLines : List Char → List Char
  | '\\' :: '\n' :: rest => joinLines rest
  | c :: rest => c :: joinLines rest
  | [] => []

/-! ### Tokens -/

/-- A piece of a text. -/
inductive Token where
  /-- A name, a keyword or a number. -/
  | word (text : String)
  /-- An operator or a separator. -/
  | symbol (text : String)
  /-- A string literal with its contents, escapes replaced. -/
  | literal (text : List Char)
  /-- A line for the preprocessor. -/
  | directive (text : String)
deriving DecidableEq

/-- The operators and separators. -/
def symbols : List (List Char) :=
  [['['], [']'], ['('], [')'], ['\x7b'], ['\x7d'], [';'], [':'], ['?'], ['.'], ['~'], ['!'], ['+'],
    ['-'], ['*'], ['/'], ['%'], ['^'], ['&'], ['|'], ['='], ['<'], ['>'], [','], [':', ':'],
    ['.', '*'], ['-', '>'], ['-', '>', '*'], ['+', '='], ['-', '='], ['*', '='], ['/', '='],
    ['%', '='], ['^', '='], ['&', '='], ['|', '='], ['=', '='], ['!', '='], ['<', '='], ['>', '='],
    ['<', '=', '>'], ['&', '&'], ['|', '|'], ['<', '<'], ['>', '>'], ['<', '<', '='],
    ['>', '>', '='], ['+', '+'], ['-', '-']]

/-- What starts something that is not read here. -/
def refused : List (List Char) :=
  [['/', '*'], ['.', '.'], ['<', ':'], [':', '>'], ['<', '%'], ['%', '>'], ['%', ':']]

/-- The character of an escape by one letter. -/
def simpleEscape? (c : Char) : Option Char :=
  [('n', '\n'), ('r', '\r'), ('t', '\t'), ('\\', '\\'), ('"', '"'), ('\'', '\''), ('?', '?'),
    ('a', '\x07'), ('b', '\x08'), ('v', '\x0b'), ('f', '\x0c')].lookup c

/-- The value of an octal digit. -/
def octalDigit? (c : Char) : Option Nat :=
  if 48 ≤ c.toNat ∧ c.toNat < 56 then some (c.toNat - 48) else none

def isWordChar (c : Char) : Bool :=
  c.isAlphanum || c == '_'

/-- What a text is read as at some point. -/
inductive Mode where
  /-- Nothing but white space was on the line. -/
  | fresh
  | between
  | word (text : List Char)
  | symbol (text : List Char)
  | comment
  | directive (text : List Char)
  | literal (text : List Char)
  /-- A backslash was in a literal. -/
  | escape (text : List Char)
  /-- Some octal digits were behind it. -/
  | octal (text : List Char) (value digits : Nat)
  /-- A literal has just ended. -/
  | closed (text : List Char)
  /-- The text cannot be read. -/
  | stuck
deriving DecidableEq

/-- What starts with a character. -/
def Mode.opened (c : Char) : Mode :=
  if isWordChar c then .word [c]
  else if c == '"' then .literal []
  else if symbols.contains [c] then .symbol [c]
  else .stuck

/-- What follows the end of a token. -/
def Mode.continued (c : Char) : Mode :=
  if c == '\n' then .fresh
  else if c == ' ' || c == '\t' then .between
  else opened c

/-- What an escape by a number adds to a literal. -/
def Mode.escaped (text : List Char) (value : Nat) : Mode :=
  if value < 128 then .literal (text ++ [Char.ofNat value]) else .stuck

/-- Reads a character of a literal. -/
def Mode.inLiteral (text : List Char) (c : Char) : Mode :=
  if c == '"' then .closed text
  else if c == '\\' then .escape text
  else if c == '\n' then .stuck
  else .literal (text ++ [c])

/-- Whether a number goes on with a character that is not read here. -/
def isOddNumber (text : List Char) (c : Char) : Bool :=
  (text.head?.any Char.isDigit) && (c == '.' || c == '\'' || c == '+' || c == '-')

/-- Reads one character: the tokens that end in front of it, and what comes of it. -/
def step : Mode → Char → List Token × Mode
  | .fresh, c =>
    if c == '#' then ([], .directive [])
    else if c == ' ' || c == '\t' then ([], .fresh)
    else ([], .continued c)
  | .between, c => ([], .continued c)
  | .word text, c =>
    if isWordChar c then ([], .word (text ++ [c]))
    else if c == '"' || isOddNumber text c then ([], .stuck)
    else ([.word (String.ofList text)], .continued c)
  | .symbol text, c =>
    let longer := text ++ [c]
    if longer == ['/', '/'] then ([], .comment)
    else if refused.contains longer then ([], .stuck)
    else if symbols.contains longer then ([], .symbol longer)
    else ([.symbol (String.ofList text)], .continued c)
  | .comment, c => ([], if c == '\n' then .fresh else .comment)
  | .directive text, c =>
    if c == '\n' then ([.directive (String.ofList text)], .fresh)
    else ([], .directive (text ++ [c]))
  | .literal text, c => ([], .inLiteral text c)
  | .escape text, c =>
    match simpleEscape? c, octalDigit? c with
    | some meant, _ => ([], .literal (text ++ [meant]))
    | none, some digit => ([], .octal text digit 1)
    | none, none => ([], .stuck)
  | .octal text value digits, c =>
    match octalDigit? c with
    | some digit =>
      if digits == 2 then ([], .escaped text (8 * value + digit))
      else ([], .octal text (8 * value + digit) (digits + 1))
    | none =>
      match Mode.escaped text value with
      | .literal text => ([], .inLiteral text c)
      | _ => ([], .stuck)
  | .closed text, c =>
    if isWordChar c then ([], .stuck) else ([.literal text], .continued c)
  | .stuck, _ => ([], .stuck)

/-- Reads characters: the tokens that end in them, and what comes of the last one. -/
def feed (mode : Mode) : List Char → List Token × Mode
  | [] => ([], mode)
  | c :: cs =>
    let next := step mode c
    let later := feed next.2 cs
    (next.1 ++ later.1, later.2)

/-- Puts adjacent literals together. -/
def joinLiterals : List Token → List Token
  | [] => []
  | .literal text :: rest =>
    match joinLiterals rest with
    | .literal more :: rest => .literal (text ++ more) :: rest
    | rest => .literal text :: rest
  | token :: rest => token :: joinLiterals rest

/-- The tokens of a text of whole lines. -/
def tokens? (text : List Char) : Option (List Token) :=
  match feed .fresh (joinLines (replaceTrigraphs text)) with
  | (tokens, .fresh) => some (joinLiterals tokens)
  | _ => none

/-! ### Strings -/

/-- What stands for a string: the address of the characters of a literal, which end at the first null
character, or a string with all its characters. -/
inductive Value where
  | pointer (text : List Char)
  | string (text : List Char)

/-- The characters up to the first null character. -/
def untilNull (text : List Char) : List Char :=
  text.takeWhile (· != '\x00')

/-- The string that is made from a value. -/
def Value.toString : Value → List Char
  | pointer text => untilNull text
  | string text => text

/-- The sum of two values; addresses cannot be added. -/
def Value.add? : Value → Value → Option Value
  | .pointer _, .pointer _ => none
  | left, right => some (.string (left.toString ++ right.toString))

/-- The strings that names stand for. -/
abbrev Variables := List (String × List Char)

def operand? (known : Variables) : Token → Option Value
  | .literal text => some (.pointer text)
  | .word name => (known.lookup name).map .string
  | _ => none

/-- The value of an expression whose first operands have a value. -/
def sum? (known : Variables) (value : Value) : List Token → Option Value
  | .symbol ";" :: _ => some value
  | .symbol "+" :: token :: rest =>
    match operand? known token with
    | none => none
    | some right =>
      match value.add? right with
      | none => none
      | some value => sum? known value rest
  | _ => none

/-- The string that a text from its first operand to a semicolon makes. -/
def initial? (known : Variables) : List Token → Option (List Char)
  | token :: rest =>
    match operand? known token with
    | none => none
    | some value => (sum? known value rest).map Value.toString
  | [] => none

/-- The name that a text declares as a constant string, and what it is set to. -/
def declared? : List Token → Option (String × List Token)
  | .word "const" :: .word "std" :: .symbol "::" :: .word "string" :: .word name ::
      .symbol "=" :: rest => some (name, rest)
  | _ => none

/-- The constant strings that a text declares, the last one first. -/
def declareAll (known : Variables) : List Token → Variables
  | [] => known
  | token :: rest =>
    match declared? (token :: rest) with
    | none => declareAll known rest
    | some (name, value) =>
      match initial? known value with
      | none => declareAll known rest
      | some text => declareAll ((name, text) :: known) rest

/-- The constant string of a name in a text. -/
def constant? (tokens : List Token) (name : String) : Option (List Char) :=
  (declareAll [] tokens).lookup name

end QueryBuild.Cpp

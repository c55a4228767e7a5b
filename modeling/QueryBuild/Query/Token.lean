/-!
# Tokens of SQL

The pieces of an SQL text and the text in which messages show them.
-/

namespace QueryBuild.Query

/-- A place in a text; lines and columns count from one. -/
structure Position where
  line : Nat
  column : Nat
deriving DecidableEq, Inhabited

namespace Position

def first : Position := ⟨1, 1⟩

def next (p : Position) (c : Char) : Position :=
  if c == '\n' then ⟨p.line + 1, 1⟩ else ⟨p.line, p.column + 1⟩

def after (p : Position) (cs : List Char) : Position :=
  cs.foldl next p

/-- A place as it ends a message. -/
def text (p : Position) : String :=
  " at Line: " ++ toString p.line ++ ", Column: " ++ toString p.column

end Position

inductive Symbol where
  | semicolon | comma | period | colon | doubleColon | assign | backslash
  | leftParen | rightParen | leftBracket | rightBracket | leftBrace | rightBrace
  | equal | doubleEqual | notEqual | less | lessEqual | greater | greaterEqual | spaceship
  | plus | minus | star | slash | doubleSlash | percent | concat
  | ampersand | doubleAmpersand | pipe | caret | caretAt | sharp | shiftLeft | shiftRight
  | tilde | tildeStar | bangTilde | bangTildeStar
  | doubleTilde | doubleTildeStar | bangDoubleTilde | bangDoubleTildeStar
  | bang | doubleBang | atSign | doubleAt | atArrow | arrowAt | atQuestion
  | squareRoot | cubeRoot | arrow | longArrow | fatArrow
  | hashArrow | hashLongArrow | hashMinus
  | question | questionPipe | questionAmpersand
deriving DecidableEq, Inhabited

/-- How a symbol is shown; both spellings of inequality are shown alike. -/
def Symbol.text : Symbol → String
  | semicolon => ";" | comma => "," | period => "." | colon => ":" | doubleColon => "::"
  | assign => ":=" | backslash => "\\"
  | leftParen => "(" | rightParen => ")" | leftBracket => "[" | rightBracket => "]"
  | leftBrace => "\x7b" | rightBrace => "\x7d"
  | equal => "=" | doubleEqual => "==" | notEqual => "<>" | less => "<" | lessEqual => "<="
  | greater => ">" | greaterEqual => ">=" | spaceship => "<=>"
  | plus => "+" | minus => "-" | star => "*" | slash => "/" | doubleSlash => "//"
  | percent => "%" | concat => "||"
  | ampersand => "&" | doubleAmpersand => "&&" | pipe => "|" | caret => "^" | caretAt => "^@"
  | sharp => "#" | shiftLeft => "<<" | shiftRight => ">>"
  | tilde => "~" | tildeStar => "~*" | bangTilde => "!~" | bangTildeStar => "!~*"
  | doubleTilde => "~~" | doubleTildeStar => "~~*"
  | bangDoubleTilde => "!~~" | bangDoubleTildeStar => "!~~*"
  | bang => "!" | doubleBang => "!!" | atSign => "@" | doubleAt => "@@" | atArrow => "@>"
  | arrowAt => "<@" | atQuestion => "@?"
  | squareRoot => "|/" | cubeRoot => "||/" | arrow => "->" | longArrow => "->>"
  | fatArrow => "=>" | hashArrow => "#>" | hashLongArrow => "#>>" | hashMinus => "#-"
  | question => "?" | questionPipe => "?|" | questionAmpersand => "?&"

inductive Quotation where
  | plain | national | hexadecimal | escaped | unicode
  | bytes | doubleBytes | raw | doubleRaw | tripleRaw | tripleDoubleRaw
  /-- A string between dollar signs, with the tag between them. -/
  | dollar (tag : String)
deriving DecidableEq, Inhabited

/-- A string literal as it is shown; the quotes inside it are not doubled again. -/
def Quotation.wrap (quotation : Quotation) (value : String) : String :=
  match quotation with
  | plain => "'" ++ value ++ "'"
  | national => "N'" ++ value ++ "'"
  | hexadecimal => "X'" ++ value ++ "'"
  | escaped => "E'" ++ value ++ "'"
  | unicode => "U&'" ++ value ++ "'"
  | bytes => "B'" ++ value ++ "'"
  | doubleBytes => "B\"" ++ value ++ "\""
  | raw => "R'" ++ value ++ "'"
  | doubleRaw => "R\"" ++ value ++ "\""
  | tripleRaw => "R'''" ++ value ++ "'''"
  | tripleDoubleRaw => "R\"\"\"" ++ value ++ "\"\"\""
  | dollar tag => "$" ++ tag ++ "$" ++ value ++ "$" ++ tag ++ "$"

inductive Token where
  /-- An identifier or a keyword; a quoted one has its quote. -/
  | word (value : String) (quote : Option Char)
  /-- A number, with the sign of a long one. -/
  | number (digits : String) (long : Bool)
  | string (quotation : Quotation) (value : String)
  | placeholder (text : String)
  | symbol (symbol : Symbol)
  /-- An operator made of other characters than the known ones. -/
  | operator (text : String)
  /-- Any white space that ends no line, the tab apart. -/
  | space
  | tab
  | newline
  | comment (text : String)
  /-- A character that starts nothing. -/
  | char (c : Char)
deriving DecidableEq, Inhabited

namespace Token

def isSeparator : Token → Bool
  | space | tab | newline | comment _ => true
  | _ => false

def text : Token → String
  | word value none => value
  | word value (some quote) => String.ofList (quote :: value.toList ++ [quote])
  | number digits long => digits ++ (if long then "L" else "")
  | string quotation value => quotation.wrap value
  | placeholder text => text
  | symbol s => s.text
  | operator text => text
  | space => " "
  | tab => "\t"
  | newline => "\n"
  | comment text => text
  | char c => String.singleton c

end Token

/-- A token with the characters that it was read from and the place where they start. -/
structure Lexeme where
  token : Token
  source : List Char
  position : Position
deriving DecidableEq, Inhabited

end QueryBuild.Query

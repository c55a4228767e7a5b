import QueryBuild.Query.Dialect
import QueryBuild.Query.Literal
import QueryBuild.Query.Token
import QueryBuild.Text.Blank
/-!
# Cutting SQL into tokens

A token is read from the first character of what is left, together with a number of characters
that follow it. Nothing is skipped, so the sources of the tokens, put together, are the text.
-/

namespace QueryBuild.Query

/-- A text that cannot be cut into tokens, and the place where that shows. -/
structure LexError where
  message : String
  position : Position
deriving DecidableEq, Inhabited

namespace Lexer

/-- A token and the number of characters that it takes after its first one, or a defect. -/
abbrev Scan := Except Literal.Defect (Token × Nat)

def sym (symbol : Symbol) (extra : Nat) : Scan :=
  .ok (.symbol symbol, extra)

/-- A symbol that may be the start of a longer operator. `rest` is what follows it. -/
def extensible (d : Dialect) (symbol : Symbol) (extra : Nat) (rest : List Char) : Scan :=
  match rest.takeWhile d.extendsOperator with
  | [] => sym symbol extra
  | more => .ok (.operator (symbol.text ++ String.ofList more), extra + more.length)

/-- A word that starts with the given characters; all but the first of them are counted. -/
def word (d : Dialect) (start rest : List Char) : Scan :=
  let more := rest.takeWhile d.continuesIdentifier
  .ok (.word (String.ofList (start ++ more)) none, start.length - 1 + more.length)

/-- A literal whose opening quote stands a number of characters after the start of the token. -/
def literal (quotation : Quotation) (quote : Char) (backslash : Bool) (offset : Nat)
    (rest : List Char) : Scan :=
  match Literal.quoted quote backslash rest with
  | some (value, count) => .ok (.string quotation (String.ofList value), offset + count)
  | none => .error ⟨"Unterminated string literal", offset⟩

/-- A raw literal; `rest` follows its first quote, which follows the letter. -/
def rawLiteral (single triple : Quotation) (quote : Char) (rest : List Char) : Scan :=
  if rest.take 2 == [quote, quote] then
    match Literal.tripleQuoted quote (rest.drop 2) with
    | some (value, count) => .ok (.string triple (String.ofList value), 3 + count)
    | none => .error ⟨"Unterminated string literal", 4⟩
  -- Two quotes without a third one are an empty literal.
  else if rest.head? == some quote then .ok (.string single "", 2)
  else
    match Literal.quoted quote false rest with
    | some (value, count) => .ok (.string single (String.ofList value), 1 + count)
    | none => .error ⟨"Unterminated string literal", 2⟩

def quotedWord (quote : Char) (rest : List Char) : Scan :=
  match Literal.quoted quote false rest with
  | some (value, count) => .ok (.word (String.ofList value) (some quote), count)
  | none =>
    .error ⟨"Expected close delimiter '" ++ String.singleton quote ++ "' before EOF.", 0⟩

/-- The exponent of a number, if one follows: a letter, perhaps a sign, and digits. -/
def exponent (rest : List Char) : List Char :=
  match rest with
  | e :: more =>
    if e == 'e' || e == 'E' then
      let sign := more.takeWhile (fun c => c == '+' || c == '-') |>.take 1
      let digits := (more.drop sign.length).takeWhile Char.isDigit
      if digits.isEmpty then [] else e :: sign ++ digits
    else []
  | [] => []

/-- A number, a hexadecimal literal or a period; `text` starts with a digit or a period. -/
def number (text : List Char) : Scan :=
  let whole := text.takeWhile Char.isDigit
  let rest := text.drop whole.length
  if whole == ['0'] && rest.head? == some 'x' then
    let digits := (rest.drop 1).takeWhile fun c => (Literal.hexValue? c).isSome
    .ok (.string .hexadecimal (String.ofList digits), 1 + digits.length)
  else
    let point := rest.take 1 |>.takeWhile (· == '.')
    let fraction := (rest.drop point.length).takeWhile Char.isDigit
    let digits := whole ++ point ++ fraction
    if digits == ['.'] then sym .period 0
    else
      let digits := digits ++ exponent (text.drop digits.length)
      -- The letter of a long number belongs to the token, but not to its digits.
      let long := (text.drop digits.length).head? == some 'L'
      .ok (.number (String.ofList digits) long, digits.length - 1 + (if long then 1 else 0))

def dollar (rest : List Char) : Scan :=
  match rest with
  | '$' :: more =>
    match Literal.dollarQuoted more with
    | some count =>
      .ok (.string (.dollar "") (String.ofList (more.take (count - 2))), 1 + count)
    | none => .error ⟨"Unterminated dollar-quoted string", rest.length + 1⟩
  | _ =>
    let tag := rest.takeWhile fun c => Text.isLetterOrNumeral c || c == '_'
    match rest.drop tag.length with
    | '$' :: more =>
      match Literal.tagQuoted tag none more with
      | some count =>
        .ok (.string (.dollar (String.ofList tag))
          (String.ofList (more.take (count - (tag.length + 2)))), tag.length + 1 + count)
      | none => .error ⟨"Unterminated dollar-quoted, expected $", rest.length + 1⟩
    | _ => .ok (.placeholder (String.ofList ('$' :: tag)), tag.length)

/-- A comment up to the end of the line, the line feed included. `rest` follows its first
character. -/
def lineComment (rest : List Char) : Scan :=
  let body := rest.takeWhile (· != '\n')
  let text := body ++ (rest.drop body.length).take 1
  .ok (.comment (String.ofList ('-' :: text)), text.length)

/-- A comment between delimiters; `rest` follows the opening one. -/
def blockComment (rest : List Char) : Scan :=
  match Literal.blockComment ' ' 1 rest with
  | some count => .ok (.comment (String.ofList ('/' :: '*' :: rest.take count)), 1 + count)
  | none => .error ⟨"Unexpected EOF while in a multi-line comment", rest.length + 2⟩

def bang (rest : List Char) : Scan :=
  match rest with
  | '=' :: _ => sym .notEqual 1
  | '!' :: _ => sym .doubleBang 1
  | '~' :: '*' :: _ => sym .bangTildeStar 2
  | '~' :: '~' :: '*' :: _ => sym .bangDoubleTildeStar 3
  | '~' :: '~' :: _ => sym .bangDoubleTilde 2
  | '~' :: _ => sym .bangTilde 1
  | _ => sym .bang 0

/-- Operators that start with a number sign, and words where they may start with one. -/
def hash (d : Dialect) (rest : List Char) : Scan :=
  match rest with
  | '-' :: more => extensible d .hashMinus 1 more
  | '>' :: '>' :: more => extensible d .hashLongArrow 2 more
  | '>' :: more => extensible d .hashArrow 1 more
  | ' ' :: _ => sym .sharp 0
  | c :: more => if d.startsIdentifier '#' then word d ['#', c] more else extensible d .sharp 0 rest
  | [] => sym .sharp 0

def atSign (d : Dialect) (rest : List Char) : Scan :=
  match rest with
  | '>' :: _ => sym .atArrow 1
  | '?' :: _ => sym .atQuestion 1
  | '@' :: ' ' :: _ => sym .doubleAt 1
  | '@' :: c :: more => if d.startsIdentifier '@' then word d ['@', '@', c] more else sym .doubleAt 1
  | ['@'] => sym .doubleAt 1
  | ' ' :: _ => sym .atSign 0
  | c :: more => if d.startsIdentifier '@' then word d ['@', c] more else sym .atSign 0
  | [] => sym .atSign 0

/-- A question mark: an operator in one dialect, where a lone one takes the next character with
it, and a placeholder in the others. -/
def question (d : Dialect) (rest : List Char) : Scan :=
  if d == .postgres then
    match rest with
    | '|' :: _ => sym .questionPipe 1
    | '&' :: _ => sym .questionAmpersand 1
    | _ :: _ => sym .question 1
    | [] => sym .question 0
  else
    let digits := rest.takeWhile Text.isNumeral
    .ok (.placeholder (String.ofList ('?' :: digits)), digits.length)

/-- A letter that may open a literal; without a quote after it, it starts a word. -/
def prefixed (d : Dialect) (c : Char) (rest : List Char) : Option Scan :=
  match c, rest with
  | 'b', '\'' :: more | 'B', '\'' :: more =>
    if d.byteStrings then some (literal .bytes '\'' false 1 more) else none
  | 'b', '"' :: more | 'B', '"' :: more =>
    if d.byteStrings then some (literal .doubleBytes '"' false 1 more) else none
  | 'r', '\'' :: more | 'R', '\'' :: more =>
    if d.rawStrings then some (rawLiteral .raw .tripleRaw '\'' more) else none
  | 'r', '"' :: more | 'R', '"' :: more =>
    if d.rawStrings then some (rawLiteral .doubleRaw .tripleDoubleRaw '"' more) else none
  | 'n', '\'' :: more | 'N', '\'' :: more => some (literal .national '\'' true 1 more)
  | 'x', '\'' :: more | 'X', '\'' :: more => some (literal .hexadecimal '\'' true 1 more)
  | 'e', '\'' :: more | 'E', '\'' :: more =>
    some <|
      match Literal.cQuoted more with
      | some (value, count) => .ok (.string .escaped (String.ofList value), 1 + count)
      | none => .error ⟨"Unterminated encoded string literal", 0⟩
  | 'u', '&' :: '\'' :: more | 'U', '&' :: '\'' :: more =>
    if d.unicodeStrings then
      some ((Literal.unicodeQuoted more 3).map fun (value, stop) =>
        (.string .unicode (String.ofList value), stop - 1))
    else none
  | _, _ => none

def scan (d : Dialect) (c : Char) (rest : List Char) : Scan :=
  match prefixed d c rest with
  | some result => result
  | none =>
    match c with
    | ' ' => .ok (.space, 0)
    | '\t' => .ok (.tab, 0)
    | '\n' => .ok (.newline, 0)
    | '\r' => .ok (.newline, if rest.head? == some '\n' then 1 else 0)
    | '\'' => literal .plain '\'' false 0 rest
    | '(' => sym .leftParen 0
    | ')' => sym .rightParen 0
    | ',' => sym .comma 0
    | ';' => sym .semicolon 0
    | '\\' => sym .backslash 0
    | '[' => sym .leftBracket 0
    | ']' => sym .rightBracket 0
    | '\x7b' => sym .leftBrace 0
    | '\x7d' => sym .rightBrace 0
    | '+' => sym .plus 0
    | '*' => sym .star 0
    | '-' =>
      match rest with
      | '-' :: _ => lineComment rest
      | '>' :: '>' :: more => extensible d .longArrow 2 more
      | '>' :: more => extensible d .arrow 1 more
      | _ => extensible d .minus 0 rest
    | '/' =>
      match rest with
      | '*' :: more => blockComment more
      | '/' :: _ => if d.integerDivision then sym .doubleSlash 1 else sym .slash 0
      | _ => sym .slash 0
    | '%' =>
      match rest with
      | b :: _ => if Text.isBlank b then sym .percent 0 else extensible d .percent 0 rest
      | [] => sym .percent 0
    | '|' =>
      match rest with
      | '/' :: more => extensible d .squareRoot 1 more
      | '|' :: '/' :: more => extensible d .cubeRoot 2 more
      | '|' :: more => extensible d .concat 1 more
      | _ => extensible d .pipe 0 rest
    | '=' =>
      match rest with
      | '>' :: _ => sym .fatArrow 1
      | '=' :: _ => sym .doubleEqual 1
      | _ => sym .equal 0
    | '!' => bang rest
    | '<' =>
      match rest with
      | '=' :: '>' :: more => extensible d .spaceship 2 more
      | '=' :: more => extensible d .lessEqual 1 more
      | '>' :: more => extensible d .notEqual 1 more
      | '<' :: more => extensible d .shiftLeft 1 more
      | '@' :: more => extensible d .arrowAt 1 more
      | _ => extensible d .less 0 rest
    | '>' =>
      match rest with
      | '=' :: more => extensible d .greaterEqual 1 more
      | '>' :: more => extensible d .shiftRight 1 more
      | _ => extensible d .greater 0 rest
    | ':' =>
      match rest with
      | ':' :: _ => sym .doubleColon 1
      | '=' :: _ => sym .assign 1
      | _ => sym .colon 0
    | '&' =>
      match rest with
      | '&' :: more => extensible d .doubleAmpersand 1 more
      | _ => extensible d .ampersand 0 rest
    | '^' => if rest.head? == some '@' then sym .caretAt 1 else sym .caret 0
    | '~' =>
      match rest with
      | '*' :: more => extensible d .tildeStar 1 more
      | '~' :: '*' :: more => extensible d .doubleTildeStar 2 more
      | '~' :: more => extensible d .doubleTilde 1 more
      | _ => extensible d .tilde 0 rest
    | '#' => hash d rest
    | '@' => atSign d rest
    | '?' => question d rest
    | '$' => dollar rest
    | c =>
      if d.quotesIdentifier c then quotedWord c rest
      else if c.isDigit || c == '.' then number (c :: rest)
      else if d.startsIdentifier c then word d [c] rest
      else if Text.isBlank c then .ok (.space, 0)
      else .ok (.char c, 0)

end Lexer

/-- The tokens of a text that starts at a place. -/
def lexemesFrom (d : Dialect) (position : Position) (text : List Char) :
    Except LexError (List Lexeme) :=
  match text with
  | [] => .ok []
  | c :: rest =>
    match Lexer.scan d c rest with
    | .error defect =>
      .error ⟨defect.message, position.after (text.take defect.offset)⟩
    | .ok (token, extra) =>
      let source := c :: rest.take extra
      match lexemesFrom d (position.after source) (rest.drop extra) with
      | .error e => .error e
      | .ok lexemes => .ok (⟨token, source, position⟩ :: lexemes)
termination_by text.length
decreasing_by simp only [List.length_drop, List.length_cons]; omega

def lexemes (d : Dialect) (text : String) : Except LexError (List Lexeme) :=
  lexemesFrom d .first text.toList

end QueryBuild.Query

import QueryBuild.Query.Keyword
import QueryBuild.Query.Lexer
/-!
# Recognising a grammar

A recogniser reads tokens from a position on and fails with the text of a message. The grammar is
recursive, so its rules are functions of the rules that they use; the knot is tied with a bound on
the nesting.
-/

namespace QueryBuild.Query.Grammar

/-- A token that is no separator, and the keyword that it may be. -/
structure Item where
  token : Token
  /-- A word without quotes in upper case; empty for everything else. -/
  keyword : String
  position : Position
deriving DecidableEq, Inhabited

def Item.ofLexeme? (lexeme : Lexeme) : Option Item :=
  if lexeme.token.isSeparator then none
  else
    some ⟨lexeme.token,
      match lexeme.token with
      | .word value none => Keyword.ofWord value
      | _ => "",
      lexeme.position⟩

structure Source where
  dialect : Dialect
  items : Array Item

/-- How far a recogniser has come, and how many levels of nesting are left. -/
structure Cursor where
  index : Nat
  depth : Nat

inductive Failure where
  | mismatch (message : String)
  | tooDeep
deriving DecidableEq, Inhabited

def Failure.text : Failure → String
  | mismatch message => message
  | tooDeep => "recursion limit exceeded"

abbrev Recognizer := ReaderT Source (StateT Cursor (Except Failure))

/-- What is known of an expression that was read. -/
inductive Shape where
  | identifier (value : String) (quoted : Bool)
  | wildcard
  | qualifiedWildcard
  | other
deriving DecidableEq, Inhabited

inductive TypeShape where
  | interval
  | custom
  | known
deriving DecidableEq, Inhabited

inductive Statement where
  | query
  /-- Any other statement, with its first word. -/
  | command (word : String)
deriving DecidableEq, Inhabited

/-- The rules through which the grammar is recursive. -/
inductive Rule where
  | statement
  | query
  /-- What operators of a higher precedence join. -/
  | body (precedence : Nat)
  | expression (precedence : Nat)
  | operand
  | tableFactor
  /-- A column that is read from a document, or columns that are nested in it. -/
  | documentColumn
  | dataType

abbrev Rule.Result : Rule → Type
  | statement => Statement
  | expression _ => Shape
  | operand => Shape
  | tableFactor => Bool
  | dataType => TypeShape
  | _ => Unit

/-- The rules, as far as they may be used. -/
abbrev Rules := (rule : Rule) → Recognizer rule.Result

section Tokens

def dialect : Recognizer Dialect := do
  return (← read).dialect

def peekAt (n : Nat) : Recognizer (Option Item) := do
  return (← read).items[(← get).index + n]?

def peek : Recognizer (Option Item) := peekAt 0

/-- Moves past the next item, even past the end. -/
def skip : Recognizer Unit :=
  modify fun cursor => { cursor with index := cursor.index + 1 }

def back : Recognizer Unit :=
  modify fun cursor => { cursor with index := cursor.index - 1 }

def next : Recognizer (Option Item) := do
  let item ← peek
  skip
  return item

def peekKeyword : Recognizer String := do
  return ((← peek).map Item.keyword).getD ""

def keywordAt (n : Nat) : Recognizer String := do
  return ((← peekAt n).map Item.keyword).getD ""

def symbolAt (n : Nat) (symbol : Symbol) : Recognizer Bool := do
  return (← peekAt n).map Item.token == some (.symbol symbol)

def fail {α : Type} (message : String) : Recognizer α :=
  throw (.mismatch message)

/-- The place of an item as it ends a message; the end of the text has none. -/
def placeOf (item : Option Item) : String :=
  (item.map fun item => item.position.text).getD ""

def failAt {α : Type} (message : String) (item : Option Item) : Recognizer α :=
  fail (message ++ placeOf item)

def shown (item : Option Item) : String :=
  (item.map fun item => item.token.text).getD "EOF"

def expected {α : Type} (what : String) (item : Option Item) : Recognizer α :=
  failAt ("Expected: " ++ what ++ ", found: " ++ shown item) item

def expectedHere {α : Type} (what : String) : Recognizer α := do
  expected what (← peek)

/-- Reads a symbol if it comes next. -/
def accept (symbol : Symbol) : Recognizer Bool := do
  if ← symbolAt 0 symbol then
    skip
    return true
  else return false

def require (symbol : Symbol) : Recognizer Unit := do
  unless ← accept symbol do expectedHere symbol.text

def acceptWord (keyword : String) : Recognizer Bool := do
  if (← peekKeyword) == keyword then
    skip
    return true
  else return false

/-- Whether keywords come next, starting a number of places ahead. -/
def wordsAt (n : Nat) : List String → Recognizer Bool
  | [] => return true
  | keyword :: keywords => do
    if (← keywordAt n) == keyword then wordsAt (n + 1) keywords else return false

/-- Reads keywords if all of them come next. -/
def acceptWords (keywords : List String) : Recognizer Bool := do
  if ← wordsAt 0 keywords then
    modify fun cursor => { cursor with index := cursor.index + keywords.length }
    return true
  else return false

def acceptOneOf (keywords : List String) : Recognizer (Option String) := do
  let keyword ← peekKeyword
  if keywords.contains keyword then
    skip
    return some keyword
  else return none

def requireWord (keyword : String) : Recognizer Unit := do
  unless ← acceptWord keyword do expectedHere keyword

def requireWords (keywords : List String) : Recognizer Unit :=
  keywords.forM requireWord

def requireOneOf (keywords : List String) : Recognizer String := do
  match ← acceptOneOf keywords with
  | some keyword => return keyword
  | none => expectedHere ("one of " ++ " or ".intercalate keywords)

end Tokens

section Combination

/-- Runs a recogniser; a failure undoes what it read and is answered. -/
def outcome {α : Type} (p : Recognizer α) : Recognizer (Except Failure α) := fun source cursor =>
  match p source cursor with
  | .ok (a, cursor) => .ok (.ok a, cursor)
  | .error e => .ok (.error e, cursor)

/-- Runs a recogniser; a failure undoes what it read, unless the text is nested too deeply. -/
def attempt {α : Type} (p : Recognizer α) : Recognizer (Option α) := do
  match ← outcome p with
  | .ok a => return some a
  | .error .tooDeep => throw .tooDeep
  | .error (.mismatch _) => return none

/-- Runs a recogniser one level deeper. -/
def nested {α : Type} (p : Recognizer α) : Recognizer α := do
  let cursor ← get
  if cursor.depth == 0 then throw .tooDeep
  set { cursor with depth := cursor.depth - 1 }
  let a ← p
  modify fun after => { after with depth := cursor.depth }
  return a

/-- Repeats a step while it answers with something, at most a number of times. -/
def iterate {α : Type} (step : α → Recognizer (Option α)) : Nat → α → Recognizer α
  | 0, a => return a
  | n + 1, a => do
    match ← step a with
    | some b => iterate step n b
    | none => return a

/-- Repeats a step, which reads at least one token, while it answers with something. -/
def repeatFrom {α : Type} (a : α) (step : α → Recognizer (Option α)) : Recognizer α := do
  iterate step ((← read).items.size + 1) a

def afterWord (keyword : String) (p : Recognizer Unit) : Recognizer Unit := do
  if ← acceptWord keyword then p

def afterWords (keywords : List String) (p : Recognizer Unit) : Recognizer Unit := do
  if ← acceptWords keywords then p

def parenthesized {α : Type} (p : Recognizer α) : Recognizer α := do
  require .leftParen
  let a ← p
  require .rightParen
  return a

/-- Symbols in front of which a comma may end a list. -/
def closesList (item : Option Item) : Bool :=
  match item with
  | none => true
  | some item =>
    [Token.symbol .rightParen, .symbol .semicolon, .symbol .rightBracket,
      .symbol .rightBrace].contains item.token || Keyword.notColumnAlias.contains item.keyword

/-- Whether a list ends here; reads the comma between two entries. -/
def listEnds (trailing : Bool) : Recognizer Bool := do
  if ← accept .comma then
    if trailing then return closesList (← peek) else return false
  else return true

/-- Entries with commas between them; answers with their number. -/
def separatedBy (trailing : Bool) (p : Recognizer Unit) : Recognizer Nat := do
  p
  let (count, _) ← repeatFrom (1, false) fun (count, done) => do
    if done then return none
    if ← listEnds trailing then return some (count, true)
    p
    return some (count + 1, false)
  return count

/-- Entries with commas between them, with one at the end where the dialect allows it. -/
def commaSeparated (p : Recognizer Unit) : Recognizer Unit := do
  let _ ← separatedBy (← dialect).trailingCommas p

/-- Entries with commas between them, or none at all in front of a closing symbol. -/
def commaSeparatedUntil (close : Symbol) (p : Recognizer Unit) : Recognizer Unit := do
  if ← symbolAt 0 close then return
  if (← dialect).trailingCommas && (← symbolAt 0 .comma) && (← symbolAt 1 close) then skip
  else commaSeparated p

end Combination

section Names

/-- A name: a word or a string. -/
def identifier : Recognizer Shape := do
  let item ← next
  match item.map Item.token with
  | some (.word value quote) => return .identifier value quote.isSome
  | some (.string .plain value) => return .identifier value true
  | _ => expected "identifier" item

/-- A name of which nothing else is needed. -/
def name : Recognizer Unit := do
  let _ ← identifier

/-- Names with periods between them. -/
def objectName : Recognizer Unit := do
  name
  repeatFrom () fun _ => do
    if ← accept .period then
      name
      return some ()
    else return none

def columnList (optional : Bool) : Recognizer Unit := do
  if ← accept .leftParen then
    commaSeparated name
    require .rightParen
  else unless optional do expectedHere "a list of columns in parentheses"

/-- A name for what stands in front of it, with or without `AS`; answers whether there is one. -/
def alias? (reserved : List String) : Recognizer Bool := do
  let afterAs ← acceptWord "AS"
  let item ← next
  match item with
  | some ⟨.word _ _, keyword, _⟩ =>
    if afterAs || !reserved.contains keyword then return true
  | some ⟨.string .plain _, _, _⟩ => return true
  | _ => pure ()
  if afterAs then expected "an identifier after AS" item
  back
  return false

def wholeNumber : Recognizer Unit := do
  let item ← next
  match item.map Item.token with
  | some (.number digits _) =>
    let complain (reason : String) : Recognizer Unit :=
      failAt ("Could not parse '" ++ digits ++ "' as u64: " ++ reason) item
    if !digits.toList.all Char.isDigit then complain "invalid digit found in string"
    else if (digits.toNat?.getD 0) ≥ Nat.pow 2 64 then complain "number too large to fit in target type"
  | _ => expected "literal int" item

def optionalPrecision : Recognizer Unit := do
  if ← accept .leftParen then
    wholeNumber
    require .rightParen

def optionalPrecisionAndScale : Recognizer Unit := do
  if ← accept .leftParen then
    wholeNumber
    if ← accept .comma then wholeNumber
    require .rightParen

/-- The text of a literal; a word that is no keyword will do. -/
def literalText : Recognizer Unit := do
  let item ← next
  match item with
  | some ⟨.word _ quote, keyword, _⟩ =>
    if quote.isNone && Keyword.all.contains keyword then expected "literal string" item
  | some ⟨.string .plain _, _, _⟩ => return
  | some ⟨.string .unicode _, _, _⟩ => return
  | some ⟨.string .escaped _, _, _⟩ =>
    unless (← dialect).escapedStrings do expected "literal string" item
  | _ => expected "literal string" item

/-- The value of a placeholder after its sign. -/
def placeholderName : Recognizer Unit := do
  let item ← next
  match item.map Item.token with
  | some (.word _ _) => return
  | some (.number _ false) => return
  | _ => expected "placeholder" item

/-- A literal or a placeholder; answers whether it is a number. -/
def value : Recognizer Bool := do
  let item ← next
  match item with
  | some ⟨.word _ (some quote), _, _⟩ =>
    if quote == '"' then return false else expected "A value?" item
  | some ⟨.word _ none, keyword, _⟩ =>
    if ["TRUE", "FALSE", "NULL"].contains keyword then return false
    else expected "a concrete value" item
  | some ⟨.number _ _, _, _⟩ => return true
  | some ⟨.string _ _, _, _⟩ => return false
  | some ⟨.placeholder _, _, _⟩ => return false
  | some ⟨.symbol .colon, _, _⟩ | some ⟨.symbol .atSign, _, _⟩ =>
    placeholderName
    return false
  | _ => expected "a value" item

/-- A field of dates or times; answers whether it is the second. -/
def dateField : Recognizer Bool := do
  let d ← dialect
  let item ← next
  match item with
  | some ⟨.word _ _, keyword, _⟩ =>
    if keyword == "WEEK" then
      if d == .ansi then
        if ← accept .leftParen then
          name
          require .rightParen
      return false
    else if Keyword.dateFields.contains keyword || d.customDateFields then
      return keyword == "SECOND"
    else expected "date/time field" item
  | some ⟨.string .plain _, _, _⟩ =>
    if d.customDateFields then return false else expected "date/time field" item
  | _ => expected "date/time field" item

end Names

end QueryBuild.Query.Grammar

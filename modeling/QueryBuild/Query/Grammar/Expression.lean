import QueryBuild.Query.Grammar.Operand
/-!
# Expressions

Operands joined by operators, the tighter ones first.
-/

namespace QueryBuild.Query.Grammar

def memberKeywords : List String :=
  ["IN", "BETWEEN", "LIKE", "ILIKE", "RLIKE", "REGEXP", "SIMILAR"]

/-- How the operators in front of which a keyword stands bind. -/
def keywordBinding (keyword : String) : Binding :=
  match keyword with
  | "OR" => .or
  | "AND" => .and
  | "XOR" => .xor
  | "IS" => .is
  | "IN" | "BETWEEN" | "OVERLAPS" | "OPERATOR" => .between
  | "LIKE" | "ILIKE" | "RLIKE" | "REGEXP" | "SIMILAR" => .like
  | "DIV" => .product
  | _ => .none

/-- How an operator binds. -/
def symbolBinding (d : Dialect) (symbol : Symbol) : Binding :=
  match symbol with
  | .equal | .less | .lessEqual | .notEqual | .greater | .greaterEqual | .doubleEqual
  | .tilde | .tildeStar | .bangTilde | .bangTildeStar
  | .doubleTilde | .doubleTildeStar | .bangDoubleTilde | .bangDoubleTildeStar
  | .spaceship => .equality
  | .pipe => .pipe
  | .caret => .caret
  | .sharp | .shiftRight | .shiftLeft => if d == .postgres then .custom else .caret
  | .ampersand => .ampersand
  | .plus | .minus => .sum
  | .star | .slash | .doubleSlash | .percent => .product
  | .concat => if d == .postgres then .custom else .product
  | .leftBracket => .bracket
  | .doubleColon => .cast
  | .bang | .doubleAmpersand | .caretAt => if d == .postgres then .custom else .cast
  | .arrow | .longArrow | .hashArrow | .hashLongArrow | .atArrow | .arrowAt | .hashMinus
  | .atQuestion | .doubleAt | .question | .questionAmpersand | .questionPipe => .custom
  | _ => .none

/-- How what comes next binds, if it is an operator. -/
def nextBinding : Recognizer Binding := do
  let d ← dialect
  match ← peek with
  | some ⟨.word _ _, keyword, _⟩ =>
    match keyword with
    | "AT" =>
      return if ← wordsAt 1 ["TIME", "ZONE"] then .timeZone else .none
    | "NOT" =>
      let after ← keywordAt 1
      return if memberKeywords.contains after then keywordBinding after else .none
    | "COLLATE" => return if d == .postgres then .collation else .none
    | _ => return keywordBinding keyword
  | some ⟨.symbol symbol, _, _⟩ => return symbolBinding d symbol
  | some ⟨.operator _, _, _⟩ => return .custom
  | _ => return .none

/-- Operators of which both sides are operands. -/
def joinsOperands (d : Dialect) (symbol : Symbol) : Bool :=
  match symbol with
  | .sharp => d == .postgres
  | .doubleAmpersand | .caretAt => d != .duckdb
  | .leftBracket | .doubleColon | .bang => false
  | symbol => symbolBinding d symbol != .none

/-- The name of a token of which no operator is known. -/
def tokenLabel (token : Token) : String :=
  match token with
  | .symbol .sharp => "Sharp"
  | .symbol .doubleAmpersand => "Overlap"
  | .symbol .caretAt => "CaretAt"
  | .symbol .bang => "ExclamationMark"
  | .word value _ =>
    "Word(Word \x7b value: \"" ++ value ++ "\", quote_style: None, keyword: " ++
      Keyword.ofWord value ++ " \x7d)"
  | token => token.text

/-- The signs of comparisons, after which `ANY` and `ALL` may stand. -/
def comparisons : List Symbol :=
  [.greater, .less, .greaterEqual, .lessEqual, .equal, .doubleEqual, .notEqual]

def rightSide (rules : Rules) (strength : Nat) (operator : Option Item) : Recognizer Unit := do
  match ← acceptOneOf ["ANY", "ALL", "SOME"] with
  | none =>
    let _ ← rules (.expression strength)
  | some _ =>
    require .leftParen
    -- A query takes its parentheses with it, so the opening one is given back.
    if ← startsQuery then
      back
      let _ ← rules (.expression strength)
    else
      let _ ← rules (.expression strength)
      require .rightParen
    let refuse (sign : String) : Recognizer Unit :=
      failAt ("Expected one of [=, >, <, =>, =<, !=] as comparison operator, found: " ++ sign)
        operator
    match operator with
    | some ⟨.symbol symbol, _, _⟩ => unless comparisons.contains symbol do refuse symbol.text
    | some ⟨.word _ _, keyword, _⟩ => refuse keyword
    | operator => refuse (shown operator)

/-- What `IS` says, after the keyword. -/
def predicate (rules : Rules) : Recognizer Unit := do
  let start ← get
  let _ ← acceptWord "NOT"
  if ["NULL", "TRUE", "FALSE", "UNKNOWN"].contains (← peekKeyword) then skip
  else if ← acceptWords ["DISTINCT", "FROM"] then anyExpression rules
  else
    set start
    expectedHere "[NOT] NULL or TRUE|FALSE or [NOT] DISTINCT FROM after IS"

/-- The members that a value is sought among, after the keyword. -/
def membership (rules : Rules) : Recognizer Unit := do
  if ← acceptWord "UNNEST" then parenthesized (anyExpression rules)
  else
    parenthesized do
      if ← startsQuery then rules .query else expressions rules

def pattern (rules : Rules) : Recognizer Unit := do
  joined rules .like
  afterWord "ESCAPE" literalText

/-- A membership, a range or a pattern, which may be negated. -/
def member (rules : Rules) : Recognizer Unit := do
  let _ ← acceptWord "NOT"
  if ← acceptWord "REGEXP" <||> acceptWord "RLIKE" then joined rules .like
  else if ← acceptWord "IN" then membership rules
  else if ← acceptWord "BETWEEN" then
    joined rules .between
    requireWord "AND"
    joined rules .between
  else if ← acceptWord "LIKE" <||> acceptWord "ILIKE" then
    let _ ← acceptWord "ANY"
    pattern rules
  else if ← acceptWords ["SIMILAR", "TO"] then pattern rules
  else expectedHere "IN or BETWEEN after NOT"

/-- An index or a slice, after the opening bracket. -/
def subscript (rules : Rules) : Recognizer Unit := do
  let lower ← if ← accept .colon then pure false else do
    anyExpression rules
    pure true
  if ← accept .rightBracket then return
  if lower then require .colon
  if ← accept .rightBracket then return
  anyExpression rules
  if ← accept .rightBracket then return
  require .colon
  if ← accept .rightBracket then return
  anyExpression rules
  require .rightBracket

def operatorName : Recognizer Unit := do
  require .leftParen
  skip
  repeatFrom () fun _ => do
    if ← accept .period then
      skip
      return some ()
    else return none
  require .rightParen

def operation (rules : Rules) (strength : Nat) : Recognizer Unit := do
  let d ← dialect
  let item ← next
  let unknown : Recognizer Unit :=
    failAt ("No infix parser for token " ++ (item.map fun i => tokenLabel i.token).getD "") item
  match item with
  | some ⟨.symbol symbol, _, _⟩ =>
    if joinsOperands d symbol then rightSide rules strength item
    else
      match symbol with
      | .doubleColon =>
        let _ ← rules .dataType
      | .leftBracket => subscript rules
      | .bang => unless d == .postgres do unknown
      | _ => unknown
  | some ⟨.operator _, _, _⟩ => rightSide rules strength item
  | some ⟨.word _ _, keyword, _⟩ =>
    match keyword with
    | "AND" | "OR" | "XOR" | "OVERLAPS" => rightSide rules strength item
    | "OPERATOR" =>
      if d == .duckdb then unknown
      else
        operatorName
        rightSide rules strength item
    | "IS" => predicate rules
    | "AT" =>
      requireWords ["TIME", "ZONE"]
      let _ ← rules (.expression strength)
    | _ =>
      -- The keyword is given back: a negation in front is read together with it.
      if keyword == "NOT" || memberKeywords.contains keyword then
        back
        member rules
      else unknown
  | _ => unknown

/-- An operand with all operators after it that bind more tightly than a strength. -/
def boundExpression (rules : Rules) (strength : Nat) : Recognizer Shape :=
  nested do
    let shape ← rules .operand
    repeatFrom shape fun _ => do
      let next := (← nextBinding).strength (← dialect)
      if strength ≥ next then return none
      operation rules next
      return some .other

end QueryBuild.Query.Grammar

import QueryBuild.Query.Grammar.Call
import QueryBuild.Query.Grammar.DataType
/-!
# Operands

What stands between operators: literals, names, calls, the constructs that start with a keyword,
and whatever has operators in front of it. Such a construct is read from behind its keyword.
-/

namespace QueryBuild.Query.Grammar

/-- The kinds of operators, by how tightly they bind. -/
inductive Binding where
  | none | or | and | not | custom | is | like | equality | between | pipe | caret | ampersand
  | xor | sum | product | timeZone | collation | bracket | cast
deriving DecidableEq

def Binding.strength (d : Dialect) (binding : Binding) : Nat :=
  if d == .postgres then
    match binding with
    | none => 0 | or => 10 | and => 20 | not => 30 | is => 40 | equality => 50
    | like => 60 | between => 60 | custom => 70 | pipe => 70 | ampersand => 70 | xor => 75
    | sum => 80 | product => 90 | caret => 100 | timeZone => 110 | collation => 120
    | bracket => 130 | cast => 140
  else
    match binding with
    | none => 0 | or => 5 | and => 10 | not => 15 | custom => 16 | is => 17 | like => 19
    | equality => 20 | between => 20 | pipe => 21 | caret => 22 | ampersand => 23 | xor => 24
    | sum => 30 | product => 40 | timeZone => 41 | collation => 0 | bracket => 50 | cast => 50

/-- What an operator of a kind joins. -/
def joined (rules : Rules) (binding : Binding) : Recognizer Unit := do
  let _ ← rules (.expression (binding.strength (← dialect)))

def queryInParentheses (rules : Rules) : Recognizer Unit :=
  parenthesized (rules .query)

def startsQuery : Recognizer Bool := do
  return ["SELECT", "WITH"].contains (← peekKeyword)

def caseChoice (rules : Rules) : Recognizer Unit := do
  unless ← acceptWord "WHEN" do
    anyExpression rules
    requireWord "WHEN"
  let branch : Recognizer Unit := do
    anyExpression rules
    requireWord "THEN"
    anyExpression rules
  branch
  repeatFrom () fun _ => do
    if ← acceptWord "WHEN" then
      branch
      return some ()
    else return none
  afterWord "ELSE" (anyExpression rules)
  requireWord "END"

def castFormat : Recognizer Unit := do
  if ← acceptWord "FORMAT" then
    let _ ← value
    if ← acceptWords ["AT", "TIME", "ZONE"] then
      let _ ← value

def castCall (rules : Rules) : Recognizer Unit :=
  parenthesized do
    anyExpression rules
    requireWord "AS"
    let _ ← rules .dataType
    castFormat

def convertCall (rules : Rules) : Recognizer Unit :=
  parenthesized do
    anyExpression rules
    if ← acceptWord "USING" then objectName
    else
      require .comma
      let _ ← rules .dataType
      afterWords ["CHARACTER", "SET"] objectName

def extractCall (rules : Rules) : Recognizer Unit :=
  parenthesized do
    let _ ← dateField
    unless ← acceptWord "FROM" do
      unless (← accept .comma) && (← dialect) == .ansi do fail "Expected 'FROM' or ','"
    anyExpression rules

def roundingCall (rules : Rules) : Recognizer Unit :=
  parenthesized do
    anyExpression rules
    if ← acceptWord "TO" then
      let _ ← dateField
    else if ← accept .comma then
      unless ← value do fail "Scale field can only be of number type"

def positionCall (rules : Rules) : Recognizer Unit := do
  let found ← attempt do
    parenthesized do
      joined rules .between
      requireWord "IN"
      anyExpression rules
  if found.isNone then
    let _ ← call rules

def substringCall (rules : Rules) : Recognizer Unit :=
  parenthesized do
    anyExpression rules
    if ← accept .comma <||> acceptWord "FROM" then anyExpression rules
    if ← acceptWord "FOR" <||> accept .comma then anyExpression rules

def overlayCall (rules : Rules) : Recognizer Unit :=
  parenthesized do
    anyExpression rules
    requireWord "PLACING"
    anyExpression rules
    requireWord "FROM"
    anyExpression rules
    afterWord "FOR" (anyExpression rules)

def trimCall (rules : Rules) : Recognizer Unit :=
  parenthesized do
    let _ ← acceptOneOf ["BOTH", "LEADING", "TRAILING"]
    anyExpression rules
    if ← acceptWord "FROM" then anyExpression rules
    else if ← accept .comma then
      if (← dialect) == .ansi then expressions rules

/-- A full-text search, after its keyword. -/
def matchCall : Recognizer Unit := do
  columnList false
  requireWord "AGAINST"
  parenthesized do
    let _ ← value
    if ← acceptWords ["IN", "NATURAL", "LANGUAGE", "MODE"] then
      let _ ← acceptWords ["WITH", "QUERY", "EXPANSION"]
    else if ← acceptWords ["IN", "BOOLEAN", "MODE"] then return
    else
      let _ ← acceptWords ["WITH", "QUERY", "EXPANSION"]

def structureValue (rules : Rules) : Recognizer Unit := do
  let typed ← structureFields rules
  parenthesized <| commaSeparated do
    anyExpression rules
    let item ← peek
    if ← acceptWord "AS" then
      if typed then failAt "Typed syntax does not allow AS" item
      name

def interval (rules : Rules) : Recognizer Unit := do
  let _ ← rules .operand
  let leading ←
    if Keyword.temporalUnits.contains (← peekKeyword) then dateField else pure false
  if leading then optionalPrecisionAndScale
  else
    optionalPrecision
    if ← acceptWord "TO" then
      if ← dateField then optionalPrecision

/-- The entries of an array, after its opening bracket. -/
def arrayEntries (rules : Rules) : Recognizer Unit := do
  commaSeparatedUntil .rightBracket (anyExpression rules)
  require .rightBracket

def mapEntries (rules : Rules) : Recognizer Unit := do
  require .leftBrace
  commaSeparatedUntil .rightBrace do
    anyExpression rules
    require .colon
    anyExpression rules
  require .rightBrace

/-- A structure in braces, or a call in braces, after the opening brace. -/
def braces (rules : Rules) (opening : Option Item) : Recognizer Unit := do
  let called ← attempt do
    requireWord "FN"
    objectName
    call rules
  if called.isSome then require .rightBrace
  else if (← dialect).braceStructures then
    commaSeparatedUntil .rightBrace do
      name
      require .colon
      anyExpression rules
    require .rightBrace
  else expected "an expression" opening

/-- The construct that starts with a keyword, after the keyword; `none` if it starts no
construct. -/
def keywordOperand (rules : Rules) (keyword : String) : Recognizer (Option Shape) := do
  let d ← dialect
  let construct (p : Recognizer Unit) : Recognizer (Option Shape) := do
    p
    return some .other
  match keyword with
  | "TRUE" | "FALSE" | "NULL" => return some .other
  | "CURRENT_CATALOG" | "CURRENT_USER" | "SESSION_USER" | "USER" =>
    return if d == .duckdb then none else some .other
  | "CURRENT_TIMESTAMP" | "CURRENT_TIME" | "CURRENT_DATE" | "LOCALTIME" | "LOCALTIMESTAMP" =>
    construct do
      if ← accept .leftParen then
        let _ ← argumentList rules
  | "CASE" => construct (caseChoice rules)
  | "CONVERT" => construct (convertCall rules)
  | "TRY_CONVERT" => if d == .ansi then construct (convertCall rules) else return none
  | "CAST" | "TRY_CAST" | "SAFE_CAST" => construct (castCall rules)
  | "EXISTS" => construct (queryInParentheses rules)
  | "EXTRACT" => construct (extractCall rules)
  | "CEIL" | "FLOOR" => construct (roundingCall rules)
  | "POSITION" =>
    if ← symbolAt 0 .leftParen then construct (positionCall rules) else return none
  | "SUBSTRING" => construct (substringCall rules)
  | "OVERLAY" => construct (overlayCall rules)
  | "TRIM" => construct (trimCall rules)
  | "INTERVAL" => construct (interval rules)
  | "ARRAY" =>
    if ← accept .leftBracket then construct (arrayEntries rules)
    else if ← symbolAt 0 .leftParen then construct (queryInParentheses rules)
    else return none
  | "NOT" =>
    construct do
      if ← acceptWord "EXISTS" then queryInParentheses rules else joined rules .not
  | "MATCH" => if d == .ansi then construct matchCall else return none
  | "STRUCT" => if d == .ansi then construct (structureValue rules) else return none
  | "MAP" =>
    if d.braceStructures && (← symbolAt 0 .leftBrace) then construct (mapEntries rules)
    else return none
  | _ => return none

/-- The pieces of a name and the call that may follow them, after the first piece. -/
def nameOrCall (rules : Rules) (first : Shape) (fuel : Nat) (pieces : Nat) : Recognizer Shape :=
  match fuel with
  | 0 => return first
  | fuel + 1 => do
    if ← accept .period then
      let item ← next
      match item.map Item.token with
      | some (.word _ _) | some (.string .plain _) => nameOrCall rules first fuel (pieces + 1)
      | some (.symbol .star) =>
        if (← dialect) == .postgres then return .qualifiedWildcard
        else expected "an identifier after '.'" item
      | _ => expected "an identifier or a '*' after '.'" item
    else if ← symbolAt 0 .leftParen then call rules
    else return if pieces == 0 then first else .other

/-- A name, a call, or a string with its character set in front, after the first word. -/
def nameOperand (rules : Rules) (value : String) (quoted : Bool) : Recognizer Shape := do
  match (← peek).map Item.token with
  | some (.symbol .leftParen) | some (.symbol .period) =>
    nameOrCall rules (.identifier value quoted) ((← read).items.size + 1) 0
  | some (.string .plain _) | some (.string .hexadecimal _) =>
    if value.toList.head? == some '_' then
      skip
      return .other
    else return .identifier value quoted
  | _ => return .identifier value quoted

/-- What starts with a word, after the word. A keyword whose construct is broken may still be a
name. -/
def wordOperand (rules : Rules) (value : String) (quoted : Bool) (keyword : String) :
    Recognizer Shape := do
  match ← outcome (keywordOperand rules keyword) with
  | .ok (some shape) => return shape
  | .ok none => nameOperand rules value quoted
  | .error failure =>
    unless Keyword.notIdentifier.contains keyword do
      if let .ok shape ← outcome (nameOperand rules value quoted) then return shape
    throw failure

def typedLiteral (rules : Rules) : Recognizer Unit := do
  match ← rules .dataType with
  | .interval => interval rules
  | .custom => fail ""
  | .known => literalText

/-- What stands in parentheses, after the opening one, with a field of it that may follow. -/
def parenthesis (rules : Rules) : Recognizer Shape := do
  if ← startsQuery then rules .query else expressions rules
  require .rightParen
  if ← accept .period then
    let item ← next
    match item.map Item.token with
    | some (.word _ _) => pure ()
    | _ => failAt ("Expected identifier, found: " ++ shown item) item
  return .other

/-- Literals that can be operands in a dialect. -/
def isOperandLiteral (d : Dialect) (quotation : Quotation) : Bool :=
  quotation != .escaped || d.escapedStrings

def operandFrom (rules : Rules) (item : Option Item) : Recognizer Shape := do
  let d ← dialect
  match item with
  | some ⟨.word value quote, keyword, _⟩ => wordOperand rules value quote.isSome keyword
  | some ⟨.number _ _, _, _⟩ => return .other
  | some ⟨.placeholder _, _, _⟩ => return .other
  | some ⟨.string quotation _, _, _⟩ =>
    if isOperandLiteral d quotation then return .other else expected "an expression" item
  | some ⟨.symbol symbol, _, _⟩ =>
    match symbol with
    | .leftBracket =>
      arrayEntries rules
      return .other
    | .minus | .plus =>
      joined rules .product
      return .other
    | .doubleBang | .squareRoot | .cubeRoot | .tilde =>
      unless d == .postgres do expected "an expression" item
      joined rules .sum
      return .other
    | .atSign =>
      if d == .postgres then joined rules .sum else placeholderName
      return .other
    | .colon =>
      placeholderName
      return .other
    | .leftParen => parenthesis rules
    | .leftBrace =>
      braces rules item
      return .other
    | _ => expected "an expression" item
  | _ => expected "an expression" item

/-- An operand, with the collation that may follow it. -/
def operand (rules : Rules) : Recognizer Shape := do
  if (← attempt (typedLiteral rules)).isSome then return .other
  let shape ← operandFrom rules (← next)
  if ← acceptWord "COLLATE" then
    objectName
    return .other
  else return shape

end QueryBuild.Query.Grammar

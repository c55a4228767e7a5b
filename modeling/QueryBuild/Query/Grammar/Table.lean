import QueryBuild.Query.Grammar.Operand
/-!
# Tables and joins

What a query reads from: tables, files, calls and subqueries, joined with each other.
-/

namespace QueryBuild.Query.Grammar

/-- A column of a table's name, with its type if it has one. -/
def aliasColumn (rules : Rules) : Recognizer Unit := do
  name
  let _ ← attempt (rules .dataType)

def aliasColumns (rules : Rules) : Recognizer Unit := do
  if ← accept .leftParen then
    commaSeparated (aliasColumn rules)
    require .rightParen

def tableAlias (rules : Rules) : Recognizer Unit := do
  if ← alias? Keyword.notTableAlias then aliasColumns rules

def settings : Recognizer Bool := do
  if (← dialect) == .ansi then
    if ← acceptWord "SETTINGS" then
      commaSeparated do
        name
        require .equal
        let _ ← value
      return true
  return false

/-- The arguments of a table function after the opening parenthesis, the closing one included. -/
def tableArguments (rules : Rules) : Recognizer Unit := do
  if ← accept .rightParen then return
  let trailing := (← dialect).trailingCommas
  let _ ← repeatFrom false fun done => do
    if done then return none
    if ← settings then return some true
    argument rules
    return some (← listEnds trailing)
  require .rightParen

/-- A subquery after its opening parenthesis, with its name. -/
def derivedTable (rules : Rules) : Recognizer Unit := do
  rules .query
  require .rightParen
  tableAlias rules

def pivotAggregate (rules : Rules) : Recognizer Unit := do
  let item ← next
  match item.map Item.token with
  | some (.word _ _) => pure ()
  | _ => expectedHere "a function identifier"
  let _ ← call rules
  afterWord "AS" name

def pivotValues (rules : Rules) : Recognizer Unit := do
  if ← acceptWord "ANY" then afterWords ["ORDER", "BY"] (orderKeys rules)
  else if ← startsQuery then rules .query
  else
    commaSeparated do
      anyExpression rules
      afterWord "AS" name

/-- Rows turned into columns, after the keyword. -/
def pivot (rules : Rules) : Recognizer Unit := do
  parenthesized do
    commaSeparated (pivotAggregate rules)
    requireWord "FOR"
    objectName
    requireWord "IN"
    parenthesized (pivotValues rules)
    afterWords ["DEFAULT", "ON", "NULL"] (parenthesized (anyExpression rules))
  tableAlias rules

/-- Columns turned into rows, after the keyword. -/
def unpivot (rules : Rules) : Recognizer Unit := do
  parenthesized do
    name
    requireWord "FOR"
    name
    requireWord "IN"
    columnList false
  tableAlias rules

def pivots (rules : Rules) : Recognizer Unit :=
  repeatFrom () fun _ => do
    match ← acceptOneOf ["PIVOT", "UNPIVOT"] with
    | some "PIVOT" =>
      pivot rules
      return some ()
    | some _ =>
      unpivot rules
      return some ()
    | none => return none

def valueRows (rules : Rules) : Recognizer Unit :=
  commaSeparated do
    let _ ← acceptWord "ROW"
    parenthesized (expressions rules)

/-- What a join is made on, if it says so. -/
def joinConstraint (rules : Rules) (natural : Bool) : Recognizer Unit := do
  if natural then return
  if ← acceptWord "ON" then anyExpression rules
  else afterWord "USING" (columnList false)

def anyTable (rules : Rules) : Recognizer Unit := do
  let _ ← rules .tableFactor

def outerJoin (side : String) : Recognizer Unit := do
  match ← acceptOneOf ["OUTER", "SEMI", "ANTI", "JOIN"] with
  | some "JOIN" => return
  | some _ => requireWord "JOIN"
  | none => fail ("expected OUTER, SEMI, ANTI or JOIN after " ++ side)

/-- The words of a join that takes a constraint; answers whether there is such a join. -/
def joinWords (natural : Bool) : Recognizer Bool := do
  let keyword ← peekKeyword
  match keyword with
  | "INNER" | "JOIN" =>
    let _ ← acceptWord "INNER"
    requireWord "JOIN"
    return true
  | "LEFT" | "RIGHT" =>
    skip
    outerJoin keyword
    return true
  | "ANTI" | "SEMI" =>
    skip
    requireWord "JOIN"
    return true
  | "FULL" =>
    skip
    let _ ← acceptWord "OUTER"
    requireWord "JOIN"
    return true
  | "OUTER" => expectedHere "LEFT, RIGHT, or FULL"
  | _ => if natural then expectedHere "a join type after NATURAL" else return false

def join (rules : Rules) : Recognizer Bool := do
  let _ ← acceptWord "GLOBAL"
  if ← acceptWord "CROSS" then
    unless ← acceptWord "JOIN" <||> acceptWord "APPLY" do
      expectedHere "JOIN or APPLY after CROSS"
    anyTable rules
    return true
  else if ← acceptWord "OUTER" then
    requireWord "APPLY"
    anyTable rules
    return true
  else if ← acceptWord "ASOF" then
    requireWord "JOIN"
    anyTable rules
    requireWord "MATCH_CONDITION"
    parenthesized (anyExpression rules)
    joinConstraint rules false
    return true
  else
    let natural ← acceptWord "NATURAL"
    if ← joinWords natural then
      anyTable rules
      joinConstraint rules natural
      return true
    else return false

/-- A table with what is joined to it; answers whether something is joined, and whether the table
is a join in parentheses. -/
def tableWithJoins (rules : Rules) : Recognizer (Bool × Bool) := do
  let isNested ← rules .tableFactor
  let joined ← repeatFrom false fun _ => do
    return if ← join rules then some true else none
  return (joined, isNested)

def tables (rules : Rules) : Recognizer Unit :=
  commaSeparated do
    let _ ← tableWithJoins rules

def namedTable (rules : Rules) : Recognizer Unit := do
  let d ← dialect
  objectName
  if d == .ansi then
    if ← acceptWord "PARTITION" then parenthesized (commaSeparated name)
  if ← accept .leftParen then tableArguments rules
  let _ ← acceptWords ["WITH", "ORDINALITY"]
  tableAlias rules
  if ← acceptWord "WITH" then
    if ← accept .leftParen then
      expressions rules
      require .rightParen
    else back
  pivots rules

/-- Arrays taken apart, after the keyword. -/
def unnest (rules : Rules) : Recognizer Unit := do
  parenthesized (expressions rules)
  let _ ← acceptWords ["WITH", "ORDINALITY"]
  tableAlias rules
  if ← acceptWord "WITH" then
    if ← acceptWord "OFFSET" then
      let _ ← alias? Keyword.notColumnAlias

/-- What a column holds where its path leads nowhere or to nothing that it can hold. -/
def documentFallbacks : Recognizer Unit :=
  repeatFrom () fun _ => do
    match ← acceptOneOf ["NULL", "ERROR", "DEFAULT"] with
    | none => return none
    | some keyword =>
      if keyword == "DEFAULT" then
        let _ ← value
      requireWord "ON"
      unless ← acceptWord "EMPTY" do requireWord "ERROR"
      return some ()

def documentColumn (rules : Rules) : Recognizer Unit := do
  if ← acceptWord "NESTED" then
    let _ ← acceptWord "PATH"
    let _ ← value
    requireWord "COLUMNS"
    parenthesized (commaSeparated (rules .documentColumn))
  else
    name
    if ← acceptWord "FOR" then requireWord "ORDINALITY"
    else
      let _ ← rules .dataType
      let _ ← acceptWord "EXISTS"
      requireWord "PATH"
      let _ ← value
      documentFallbacks

/-- A document as a table, after the keyword. -/
def documentTable (rules : Rules) : Recognizer Unit := do
  parenthesized do
    anyExpression rules
    require .comma
    let _ ← value
    requireWord "COLUMNS"
    parenthesized (commaSeparated (rules .documentColumn))
  tableAlias rules

/-- A column of an opened document: its type, its path and whether it is a document itself. -/
def openedColumn (rules : Rules) : Recognizer Unit := do
  name
  let _ ← rules .dataType
  match (← peek).map Item.token with
  | some (.string .plain _) => skip
  | _ => pure ()
  afterWord "AS" (requireWord "JSON")

def openedDocument (rules : Rules) : Recognizer Unit := do
  parenthesized do
    anyExpression rules
    if ← accept .comma then
      let _ ← value
  afterWord "WITH" (parenthesized (commaSeparated (openedColumn rules)))
  tableAlias rules

/-- What stands in parentheses in the place of a table, after the opening one. Where it is no
subquery, it has to be a join; one dialect allows a lone table. -/
def tableInParentheses (rules : Rules) : Recognizer Bool := do
  if (← attempt (derivedTable rules)).isSome then
    pivots rules
    return false
  let (joined, isNested) ← tableWithJoins rules
  unless joined || isNested || (← dialect) == .ansi do expectedHere "joined table"
  require .rightParen
  tableAlias rules
  return joined || isNested

/-- A table, or tables joined in parentheses; answers whether it is the latter. -/
def tableFactor (rules : Rules) : Recognizer Bool := do
  let d ← dialect
  if ← acceptWord "LATERAL" then
    if ← accept .leftParen then derivedTable rules
    else
      objectName
      require .leftParen
      bareArguments rules
      tableAlias rules
    return false
  else if ← acceptWord "TABLE" then
    parenthesized (anyExpression rules)
    tableAlias rules
    return false
  else if ← accept .leftParen then tableInParentheses rules
  else if d == .ansi && (← peekKeyword) == "VALUES" && (← symbolAt 1 .leftParen) then
    skip
    valueRows rules
    tableAlias rules
    return false
  else
    if ← pure (d != .duckdb) <&&> acceptWord "UNNEST" then unnest rules
    else if ← symbolAt 1 .leftParen <&&> acceptWord "JSON_TABLE" then documentTable rules
    else if ← symbolAt 1 .leftParen <&&> acceptWord "OPENJSON" then openedDocument rules
    else namedTable rules
    return false

end QueryBuild.Query.Grammar

import QueryBuild.Query.Grammar.Basic
/-!
# Calls of functions

Arguments and what may follow them: filters, windows and the treatment of nulls.
-/

namespace QueryBuild.Query.Grammar

def expression (rules : Rules) : Recognizer Shape :=
  rules (.expression 0)

/-- Any expression of which nothing else is needed. -/
def anyExpression (rules : Rules) : Recognizer Unit := do
  let _ ← expression rules

def expressions (rules : Rules) : Recognizer Unit :=
  commaSeparated (anyExpression rules)

def orderKey (rules : Rules) : Recognizer Unit := do
  anyExpression rules
  let _ ← acceptOneOf ["ASC", "DESC"]
  unless ← acceptWords ["NULLS", "FIRST"] do
    let _ ← acceptWords ["NULLS", "LAST"]
  if (← dialect) == .ansi then
    if ← acceptWords ["WITH", "FILL"] then
      afterWord "FROM" (anyExpression rules)
      afterWord "TO" (anyExpression rules)
      afterWord "STEP" (anyExpression rules)

def orderKeys (rules : Rules) : Recognizer Unit :=
  commaSeparated (orderKey rules)

/-- The pieces of a name with periods, after its first one. A star may end it. -/
def qualifiedName (fuel : Nat) : Recognizer Bool :=
  match fuel with
  | 0 => return false
  | fuel + 1 => do
    if ← accept .period then
      let item ← next
      match item.map Item.token with
      | some (.word _ _) | some (.string .plain _) => qualifiedName fuel
      | some (.symbol .star) => return true
      | _ => expected "an identifier or a '*' after '.'" item
    else return false

/-- An expression, or a star with or without the name of a table. -/
def wildcardOrExpression (rules : Rules) : Recognizer Shape := do
  let start ← get
  let item ← next
  match item.map Item.token with
  | some (.word _ _) | some (.string .plain _) =>
    if ← qualifiedName (← read).items.size then return .qualifiedWildcard
  | some (.symbol .star) => return .wildcard
  | _ => pure ()
  set start
  expression rules

def argumentOperator : Recognizer Unit := do
  let d ← dialect
  unless ← acceptWord "VALUE" do
    let item ← peek
    match item.map Item.token with
    | some (.symbol .fatArrow) => skip
    | some (.symbol .equal) =>
      if d.equalsNamesArgument then skip else expected "argument operator" item
    | some (.symbol .assign) =>
      if d.assignNamesArgument then skip else expected "argument operator" item
    | _ => expected "argument operator" item

def argument (rules : Rules) : Recognizer Unit := do
  let named ← attempt do
    name
    argumentOperator
    wildcardOrExpression rules
  if named.isNone then
    let _ ← wildcardOrExpression rules

def allOrDistinct : Recognizer Bool := do
  let item ← peek
  let all ← acceptWord "ALL"
  let distinct ← acceptWord "DISTINCT"
  if all && distinct then failAt "Cannot specify both ALL and DISTINCT" item
  return distinct

/-- How nulls are treated; answers whether it is said. -/
def nullTreatment : Recognizer Bool := do
  match ← acceptOneOf ["RESPECT", "IGNORE"] with
  | some _ =>
    requireWord "NULLS"
    return true
  | none => return false

/-- What happens to a list that grows too long. -/
def listOverflow (rules : Rules) : Recognizer Unit := do
  if ← acceptWords ["ON", "OVERFLOW"] then
    unless ← acceptWord "ERROR" do
      requireWord "TRUNCATE"
      let item ← peek
      match item with
      | some ⟨.word _ _, keyword, _⟩ =>
        unless keyword == "WITH" || keyword == "WITHOUT" do
          expected "either filler, WITH, or WITHOUT in LISTAGG" item
      | some ⟨.string _ _, _, _⟩ => anyExpression rules
      | _ => expected "either filler, WITH, or WITHOUT in LISTAGG" item
      unless ← acceptWord "WITH" <||> acceptWord "WITHOUT" do
        expectedHere "either WITH or WITHOUT in LISTAGG"
      requireWord "COUNT"

/-- What a document that is made from the arguments does with nulls. -/
def documentNulls : Recognizer Unit := do
  unless ← acceptWords ["ABSENT", "ON", "NULL"] do
    let _ ← acceptWords ["NULL", "ON", "NULL"]

/-- The arguments after an opening parenthesis, the closing one included; answers whether they say
how nulls are treated. -/
def argumentList (rules : Rules) : Recognizer Bool := do
  let d ← dialect
  documentNulls
  if ← accept .rightParen then return false
  let _ ← allOrDistinct
  commaSeparated (argument rules)
  let nulls ← if d == .ansi then nullTreatment else pure false
  afterWords ["ORDER", "BY"] (orderKeys rules)
  afterWord "LIMIT" (anyExpression rules)
  if d == .ansi then
    if ← acceptWord "HAVING" then
      let _ ← requireOneOf ["MIN", "MAX"]
      anyExpression rules
    if ← acceptWord "SEPARATOR" then
      let _ ← value
  listOverflow rules
  documentNulls
  require .rightParen
  return nulls

/-- Arguments and nothing else after an opening parenthesis, the closing one included. -/
def bareArguments (rules : Rules) : Recognizer Unit := do
  if ← accept .rightParen then return
  commaSeparated (argument rules)
  require .rightParen

def frameBound (rules : Rules) : Recognizer Unit := do
  unless ← acceptWords ["CURRENT", "ROW"] do
    unless ← acceptWord "UNBOUNDED" do anyExpression rules
    unless ← acceptWord "PRECEDING" <||> acceptWord "FOLLOWING" do
      expectedHere "PRECEDING or FOLLOWING"

def frame (rules : Rules) : Recognizer Unit := do
  let item ← next
  unless ["ROWS", "RANGE", "GROUPS"].contains ((item.map Item.keyword).getD "") do
    expected "ROWS, RANGE, GROUPS" item
  if ← acceptWord "BETWEEN" then
    frameBound rules
    requireWord "AND"
  frameBound rules

/-- A window after an opening parenthesis, the closing one included. -/
def windowDefinition (rules : Rules) : Recognizer Unit := do
  match ← peek with
  | some ⟨.word _ quote, keyword, _⟩ =>
    unless quote.isNone && Keyword.all.contains keyword do skip
  | _ => pure ()
  afterWords ["PARTITION", "BY"] (expressions rules)
  afterWords ["ORDER", "BY"] (orderKeys rules)
  unless ← accept .rightParen do
    frame rules
    require .rightParen

def namedWindow (rules : Rules) : Recognizer Unit := do
  name
  requireWord "AS"
  if ← accept .leftParen then windowDefinition rules
  else if (← dialect) == .ansi then name
  else expectedHere "("

/-- The condition on the rows of an aggregate. A filter that is not in parentheses, or has no
condition, is passed over as far as it goes. -/
def aggregateFilter (rules : Rules) : Recognizer Unit := do
  if (← dialect).aggregateFilter then
    if ← acceptWord "FILTER" then
      if ← accept .leftParen then
        if ← acceptWord "WHERE" then
          anyExpression rules
          require .rightParen

/-- A call after the name of its function. -/
def call (rules : Rules) : Recognizer Shape := do
  require .leftParen
  let mut nulls ← argumentList rules
  if (← dialect) == .ansi then
    if ← accept .leftParen then nulls ← argumentList rules
  afterWords ["WITHIN", "GROUP"] do
    parenthesized do
      requireWords ["ORDER", "BY"]
      orderKeys rules
  aggregateFilter rules
  unless nulls do
    let _ ← nullTreatment
  if ← acceptWord "OVER" then
    if ← accept .leftParen then windowDefinition rules else name
  return .other

end QueryBuild.Query.Grammar

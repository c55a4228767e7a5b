import QueryBuild.Query.Grammar.Select
/-!
# Statements that change rows

Insertions, updates and deletions. The first two may also end a query that starts with common
tables.
-/

namespace QueryBuild.Query.Grammar

def assignment (rules : Rules) : Recognizer Unit := do
  oneOrMoreInParentheses objectName
  require .equal
  anyExpression rules

/-- The rows that a change answers with, if any. -/
def returned (rules : Rules) : Recognizer Unit :=
  afterWord "RETURNING" (commaSeparated (selectItem rules))

/-- What happens instead where a change fails. -/
def orElse : Recognizer Unit := do
  if ← acceptWord "OR" then
    let _ ← requireOneOf ["REPLACE", "ROLLBACK", "ABORT", "FAIL", "IGNORE"]

/-- What an insertion does with rows that exist, after `ON`. -/
def onConflict (rules : Rules) : Recognizer Unit := do
  if ← acceptWord "CONFLICT" then
    if ← acceptWords ["ON", "CONSTRAINT"] then objectName else columnList true
    requireWord "DO"
    unless ← acceptWord "NOTHING" do
      requireWords ["UPDATE", "SET"]
      commaSeparated (assignment rules)
      afterWord "WHERE" (anyExpression rules)
  else
    requireWords ["DUPLICATE", "KEY", "UPDATE"]
    commaSeparated (assignment rules)

def startsQueryInParentheses : Recognizer Bool := do
  return (← symbolAt 0 .leftParen) && ["SELECT", "WITH"].contains (← keywordAt 1)

/-- An insertion, after the keyword. -/
def insertion (rules : Rules) : Recognizer Unit := do
  orElse
  let _ ← acceptWord "OVERWRITE"
  let _ ← acceptWord "INTO"
  let _ ← acceptWord "TABLE"
  objectName
  if (← dialect) == .postgres then afterWord "AS" name
  unless ← acceptWords ["DEFAULT", "VALUES"] do
    unless ← startsQueryInParentheses do
      columnList true
      afterWord "PARTITION" (parenthesized (expressions rules))
    rules .query
  afterWord "ON" (onConflict rules)
  returned rules

/-- An update, after the keyword. -/
def update (rules : Rules) : Recognizer Unit := do
  orElse
  let _ ← tableWithJoins rules
  requireWord "SET"
  commaSeparated (assignment rules)
  if ← acceptWord "FROM" then
    let _ ← tableWithJoins rules
  afterWord "WHERE" (anyExpression rules)
  returned rules

/-- A deletion, after the keyword. -/
def deletion (rules : Rules) : Recognizer Unit := do
  unless ← acceptWord "FROM" do
    unless (← dialect) == .ansi do
      commaSeparated objectName
      requireWord "FROM"
  tables rules
  afterWord "USING" (tables rules)
  afterWord "WHERE" (anyExpression rules)
  returned rules
  afterWords ["ORDER", "BY"] (orderKeys rules)
  afterWord "LIMIT" (anyExpression rules)

/-- A query; an insertion or an update may stand in its place after common tables. -/
def query (rules : Rules) : Recognizer Unit :=
  nested do
    commonTables rules
    if ← acceptWord "INSERT" then insertion rules
    else if ← acceptWord "UPDATE" then update rules
    else plainQuery rules

end QueryBuild.Query.Grammar

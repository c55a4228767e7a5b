import QueryBuild.Query.Grammar.Expression
import QueryBuild.Query.Grammar.Table
/-!
# Queries

Selections, rows of values and other queries, combined by set operators, ordered and cut.
-/

namespace QueryBuild.Query.Grammar

def oneOrMoreInParentheses (p : Recognizer Unit) : Recognizer Unit := do
  if ← accept .leftParen then
    commaSeparated p
    require .rightParen
  else p

/-- The columns that a star leaves out, replaces or renames. -/
def wildcardOptions (rules : Rules) : Recognizer Unit := do
  let d ← dialect
  let mut like := false
  if d == .ansi then
    if ← acceptWord "ILIKE" then
      let item ← next
      match item.map Item.token with
      | some (.string .plain _) => like := true
      | _ => expected "ilike pattern" item
  if !like && d != .postgres then
    afterWord "EXCLUDE" (oneOrMoreInParentheses name)
  if d == .ansi then
    if ← acceptWord "EXCEPT" then
      if ← symbolAt 0 .leftParen then columnList false else name
  if d != .postgres then
    if ← acceptWord "REPLACE" then
      if ← accept .leftParen then
        commaSeparated do
          anyExpression rules
          let _ ← acceptWord "AS"
          name
        require .rightParen
      else expected "( after REPLACE but" (← next)
  if d == .ansi then
    afterWord "RENAME" <| oneOrMoreInParentheses do
      name
      requireWord "AS"
      name

/-- The word that cannot be selected. -/
def isFrom (value : String) : Bool :=
  value.toList.map Char.toLower == "from".toList

def selectItem (rules : Rules) : Recognizer Unit := do
  match ← wildcardOrExpression rules with
  | .wildcard | .qualifiedWildcard => wildcardOptions rules
  | .identifier value false =>
    if isFrom value then failAt ("Expected an expression, found: " ++ value) (← peek)
    let _ ← alias? Keyword.notColumnAlias
  | _ =>
    let _ ← alias? Keyword.notColumnAlias

/-- Whether rows are distinct, and in what. -/
def distinctness (rules : Rules) : Recognizer Unit := do
  if ← allOrDistinct then
    if ← acceptWord "ON" then
      parenthesized do
        unless ← symbolAt 0 .rightParen do expressions rules

def top (rules : Rules) : Recognizer Unit := do
  if ← accept .leftParen then
    anyExpression rules
    require .rightParen
  else wholeNumber
  let _ ← acceptWord "PERCENT"
  let _ ← acceptWords ["WITH", "TIES"]

def intoTable : Recognizer Unit := do
  let _ ← acceptOneOf ["TEMP", "TEMPORARY"]
  let _ ← acceptWord "UNLOGGED"
  let _ ← acceptWord "TABLE"
  objectName

def lateralViews (rules : Rules) : Recognizer Unit :=
  repeatFrom () fun _ => do
    if ← acceptWords ["LATERAL", "VIEW"] then
      let _ ← acceptWord "OUTER"
      anyExpression rules
      objectName
      commaSeparated do
        let _ ← alias? Keyword.notLateralColumn
      return some ()
    else return none

/-- Expressions in parentheses, which may be missing; a lone one needs none. -/
def tuple (rules : Rules) (lone : Bool) : Recognizer Unit := do
  if lone && !(← symbolAt 0 .leftParen) then anyExpression rules
  else
    parenthesized do
      unless ← symbolAt 0 .rightParen do expressions rules

def groupKey (rules : Rules) : Recognizer Unit := do
  if ← acceptWords ["GROUPING", "SETS"] then
    parenthesized (commaSeparated (tuple rules false))
  else if ← acceptWord "CUBE" <||> acceptWord "ROLLUP" then
    parenthesized (commaSeparated (tuple rules true))
  else if (← symbolAt 0 .leftParen) && (← symbolAt 1 .rightParen) then
    skip
    skip
  else anyExpression rules

def grouping (rules : Rules) : Recognizer Unit := do
  unless ← acceptWord "ALL" do commaSeparated (groupKey rules)
  if (← dialect) == .ansi then
    repeatFrom () fun _ => do
      if ← acceptWord "WITH" then
        let _ ← requireOneOf ["ROLLUP", "CUBE", "TOTALS"]
        return some ()
      else return none

/-- Windows with names and a condition on their values, in either order. -/
def windowsAndCondition (rules : Rules) : Recognizer Unit := do
  let windows := commaSeparated (namedWindow rules)
  if ← acceptWord "WINDOW" then
    windows
    afterWord "QUALIFY" (anyExpression rules)
  else if ← acceptWord "QUALIFY" then
    anyExpression rules
    afterWord "WINDOW" windows

/-- The relation between the levels of a hierarchy. -/
def hierarchy (rules : Rules) : Recognizer Unit := do
  if ← acceptWords ["CONNECT", "BY"] then
    expressions rules
    requireWords ["START", "WITH"]
    anyExpression rules
  else
    requireWords ["START", "WITH"]
    anyExpression rules
    requireWords ["CONNECT", "BY"]
    expressions rules

def select (rules : Rules) : Recognizer Unit := do
  let d ← dialect
  requireWord "SELECT"
  distinctness rules
  afterWord "TOP" (top rules)
  commaSeparated (selectItem rules)
  afterWord "INTO" intoTable
  afterWord "FROM" (tables rules)
  lateralViews rules
  if d == .ansi then afterWord "PREWHERE" (anyExpression rules)
  afterWord "WHERE" (anyExpression rules)
  afterWords ["GROUP", "BY"] (grouping rules)
  afterWords ["CLUSTER", "BY"] (expressions rules)
  afterWords ["DISTRIBUTE", "BY"] (expressions rules)
  afterWords ["SORT", "BY"] (expressions rules)
  afterWord "HAVING" (anyExpression rules)
  windowsAndCondition rules
  if d == .ansi && ["START", "CONNECT"].contains (← peekKeyword) then hierarchy rules

/-- A table as a query, after the keyword. Three tokens are read, whatever they are. -/
def tableQuery : Recognizer Unit := do
  let first ← next
  let second ← next
  let third ← next
  let isWord (item : Option Item) : Bool :=
    match item.map Item.token with
    | some (.word _ _) => true
    | _ => false
  if second.map Item.token == some (.symbol .period) then
    unless isWord first do expected "Schema name" first
    unless isWord third do expected "Table name" third
  else unless isWord first do expected "Table name" first

/-- How tightly a set operator binds; nothing else binds at all. -/
def setOperatorStrength (keyword : String) : Nat :=
  match keyword with
  | "UNION" | "EXCEPT" => 10
  | "INTERSECT" => 20
  | _ => 0

/-- What a set operator does with equal rows, and how it finds columns. -/
def setQuantifier : Recognizer Unit := do
  unless ← acceptWords ["DISTINCT", "BY", "NAME"] <||> acceptWords ["BY", "NAME"] do
    if ← acceptWord "ALL" then
      let _ ← acceptWords ["BY", "NAME"]
    else
      let _ ← acceptWord "DISTINCT"

/-- A query with all set operators after it that bind more tightly than a strength. -/
def queryBody (rules : Rules) (strength : Nat) : Recognizer Unit := do
  if (← peekKeyword) == "SELECT" then select rules
  else if ← accept .leftParen then
    rules .query
    require .rightParen
  else if ← acceptWord "VALUES" then valueRows rules
  else if ← acceptWord "TABLE" then tableQuery
  else expectedHere "SELECT, VALUES, or a subquery in the query body"
  repeatFrom () fun _ => do
    let next := setOperatorStrength (← peekKeyword)
    -- An operator that binds no tighter is left to the caller, so equal ones group to the left.
    if strength ≥ next then return none
    skip
    setQuantifier
    rules (.body next)
    return some ()

/-- Whether a common table is stored, after `AS`. -/
def materialization : Recognizer Unit := do
  if (← dialect) == .postgres then
    unless ← acceptWord "MATERIALIZED" do
      let _ ← acceptWords ["NOT", "MATERIALIZED"]

def commonTable (rules : Rules) : Recognizer Unit := do
  name
  unless ← acceptWord "AS" do
    aliasColumns rules
    requireWord "AS"
  materialization
  queryInParentheses rules
  afterWord "FROM" name

def commonTables (rules : Rules) : Recognizer Unit := do
  if ← acceptWord "WITH" then
    let _ ← acceptWord "RECURSIVE"
    commaSeparated (commonTable rules)

/-- How gaps in an ordered result are filled. -/
def interpolation (rules : Rules) : Recognizer Unit := do
  if (← dialect) == .ansi then
    if ← acceptWord "INTERPOLATE" then
      if ← accept .leftParen then
        commaSeparatedUntil .rightParen do
          name
          afterWord "AS" (anyExpression rules)
        require .rightParen

def ordering (rules : Rules) : Recognizer Unit := do
  if ← acceptWords ["ORDER", "BY"] then
    orderKeys rules
    interpolation rules

/-- The number of rows of a result, after the keyword; answers whether there is a limit. -/
def limit (rules : Rules) : Recognizer Bool := do
  if ← acceptWord "ALL" then return false
  anyExpression rules
  return true

/-- The number of rows that are passed over, after the keyword. -/
def offset (rules : Rules) : Recognizer Unit := do
  anyExpression rules
  let _ ← acceptOneOf ["ROW", "ROWS"]

/-- A limit and an offset, in either order. -/
def limits (rules : Rules) : Recognizer Unit := do
  let d ← dialect
  let round (state : Bool × Bool) : Recognizer (Bool × Bool) := do
    let (limited, moved) := state
    let limited ←
      if ← pure !limited <&&> acceptWord "LIMIT" then limit rules else pure limited
    let moved ←
      if ← pure !moved <&&> acceptWord "OFFSET" then do
        offset rules
        pure true
      else pure moved
    if ← pure (d == .ansi && limited && !moved) <&&> accept .comma then
      anyExpression rules
      return (limited, true)
    else return (limited, moved)
  -- Each of the two stands at most once, so two rounds read them in either order.
  let _ ← round (← round (false, false))

def fetch : Recognizer Unit := do
  let _ ← requireOneOf ["FIRST", "NEXT"]
  if (← acceptOneOf ["ROW", "ROWS"]).isNone then
    let _ ← value
    let _ ← acceptWord "PERCENT"
    let _ ← requireOneOf ["ROW", "ROWS"]
  unless ← acceptWord "ONLY" do
    unless ← acceptWords ["WITH", "TIES"] do expectedHere "one of ONLY or WITH TIES"

def elementName : Recognizer Unit :=
  parenthesized literalText

/-- Options with commas in front of them; a comma may stand alone. -/
def documentOptions (option : Recognizer Unit) : Recognizer Unit :=
  repeatFrom () fun _ => do
    if ← accept .comma then
      option
      return some ()
    else return none

def xmlResult : Recognizer Unit := do
  match ← acceptOneOf ["RAW", "AUTO", "EXPLICIT", "PATH"] with
  | none => fail "Expected FOR XML [RAW | AUTO | EXPLICIT | PATH ]"
  | some keyword =>
    if ← pure (keyword == "RAW" || keyword == "PATH") <&&> symbolAt 0 .leftParen then elementName
    documentOptions do
      match ← acceptOneOf ["ELEMENTS", "BINARY", "ROOT", "TYPE"] with
      | some "BINARY" => requireWord "BASE64"
      | some "ROOT" => elementName
      | _ => pure ()

def jsonResult : Recognizer Unit := do
  if (← acceptOneOf ["AUTO", "PATH"]).isNone then fail "Expected FOR JSON [AUTO | PATH ]"
  documentOptions do
    match ← acceptOneOf ["ROOT", "INCLUDE_NULL_VALUES", "WITHOUT_ARRAY_WRAPPER"] with
    | some "ROOT" => elementName
    | _ => pure ()

def lock : Recognizer Unit := do
  let _ ← requireOneOf ["UPDATE", "SHARE"]
  afterWord "OF" objectName
  unless ← acceptWord "NOWAIT" do
    let _ ← acceptWords ["SKIP", "LOCKED"]

/-- The locks of a query, or the document that its result is made into, which comes last. -/
def locks : Recognizer Unit := do
  let _ ← repeatFrom false fun done => do
    if done then return none
    if ← acceptWord "FOR" then
      if ← acceptWord "XML" then
        xmlResult
        return some true
      else if ← acceptWord "JSON" then
        jsonResult
        return some true
      else if ← acceptWord "BROWSE" then return some true
      else
        lock
        return some false
    else return none

def resultFormat : Recognizer Unit := do
  if (← dialect) == .ansi then afterWord "FORMAT" name

/-- A query after its common tables. -/
def plainQuery (rules : Rules) : Recognizer Unit := do
  rules (.body 0)
  ordering rules
  limits rules
  if (← dialect) == .ansi then afterWord "BY" (expressions rules)
  let _ ← settings
  afterWord "FETCH" fetch
  locks
  resultFormat

end QueryBuild.Query.Grammar

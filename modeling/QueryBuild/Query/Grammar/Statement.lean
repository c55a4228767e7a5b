import QueryBuild.Query.Grammar.Change
/-!
# Statements

A unit holds a query, so of other statements only the first word matters. They are read as far as
that takes, and no further than to the semicolon that ends them.
-/

namespace QueryBuild.Query.Grammar

def restOfStatement : Recognizer Unit :=
  repeatFrom () fun _ => do
    match (← peek).map Item.token with
    | none => return none
    | some (.symbol .semicolon) => return none
    | some _ =>
      skip
      return some ()

def objectNames : Recognizer Unit :=
  commaSeparated objectName

/-- The words that may follow the creation or the end of a transaction. -/
def transactionChain : Recognizer Unit := do
  let _ ← acceptOneOf ["TRANSACTION", "WORK"]
  if ← acceptWord "AND" then
    let _ ← acceptWord "NO"
    requireWord "CHAIN"

def transactionModes : Recognizer Unit :=
  repeatFrom () fun _ => do
    let read ←
      if ← acceptWords ["ISOLATION", "LEVEL"] then
        if ← acceptWords ["READ", "UNCOMMITTED"] <||> acceptWords ["READ", "COMMITTED"] <||>
            acceptWords ["REPEATABLE", "READ"] <||> acceptWord "SERIALIZABLE" then pure true
        else expectedHere "isolation level"
      else acceptWords ["READ", "ONLY"] <||> acceptWords ["READ", "WRITE"]
    let comma ← accept .comma
    return if read || comma then some () else none

def creation : Recognizer Unit := do
  let d ← dialect
  let replaces ← acceptWords ["OR", "REPLACE"]
  let _ ← acceptWords ["OR", "ALTER"]
  let _ ← acceptWord "LOCAL"
  let _ ← acceptWord "GLOBAL"
  let _ ← acceptWord "TRANSIENT"
  let _ ← acceptOneOf ["TEMP", "TEMPORARY"]
  if d == .duckdb then
    let _ ← acceptWord "PERSISTENT"
  let named (keywords : List String) : Recognizer Bool := do
    if ← acceptWords keywords then
      let _ ← acceptWords ["IF", "NOT", "EXISTS"]
      objectName
      return true
    else return false
  unless ← named ["TABLE"] <||> named ["VIEW"] <||> named ["MATERIALIZED", "VIEW"] <||>
      named ["EXTERNAL", "TABLE"] <||> named ["FUNCTION"] <||> named ["MACRO"] <||>
      named ["POLICY"] <||> named ["TRIGGER"] <||> acceptWords ["CONSTRAINT", "TRIGGER"] <||>
      acceptWord "SECRET" do
    if replaces then
      expectedHere
        "[EXTERNAL] TABLE or [MATERIALIZED] VIEW or FUNCTION after CREATE OR REPLACE"
    unless ← named ["EXTENSION"] <||> acceptWord "INDEX" <||> acceptWords ["UNIQUE", "INDEX"] <||>
        named ["VIRTUAL", "TABLE"] <||> acceptWord "SCHEMA" <||> named ["DATABASE"] <||>
        named ["ROLE"] <||> named ["SEQUENCE"] <||> named ["TYPE"] <||> named ["PROCEDURE"] do
      expectedHere "an object type after CREATE"
  restOfStatement

def removal : Recognizer Unit := do
  let d ← dialect
  if d != .postgres then
    let _ ← acceptWord "TEMPORARY"
  if d == .duckdb then
    let _ ← acceptWord "PERSISTENT"
  match ← acceptOneOf
      ["TABLE", "VIEW", "INDEX", "ROLE", "SCHEMA", "DATABASE", "SEQUENCE", "STAGE", "TYPE"] with
  | some _ =>
    let _ ← acceptWords ["IF", "EXISTS"]
    objectNames
    let place ← peek
    let cascade ← acceptWord "CASCADE"
    let restrict ← acceptWord "RESTRICT"
    if cascade && restrict then failAt "Cannot specify both CASCADE and RESTRICT in DROP" place
    let _ ← acceptWord "PURGE"
  | none =>
    match ← acceptOneOf ["FUNCTION", "POLICY", "PROCEDURE", "SECRET", "TRIGGER"] with
    | some _ =>
      let _ ← acceptWords ["IF", "EXISTS"]
      objectName
      restOfStatement
    | none =>
      expectedHere
        ("TABLE, VIEW, INDEX, ROLE, SCHEMA, DATABASE, FUNCTION, PROCEDURE, STAGE, TRIGGER, " ++
          "SECRET, SEQUENCE, or TYPE after DROP")

def attachment (rules : Rules) : Recognizer Unit := do
  let _ ← acceptWord "DATABASE"
  if (← dialect) == .duckdb then
    let _ ← acceptWords ["IF", "NOT", "EXISTS"]
    name
    afterWord "AS" name
    if ← accept .leftParen then restOfStatement
  else
    anyExpression rules
    requireWord "AS"
    name

/-- A copy between a table and a file, after the keyword. -/
def copy (rules : Rules) : Recognizer Unit := do
  if ← accept .leftParen then
    rules .query
    require .rightParen
  else
    objectName
    columnList true
  if (← acceptOneOf ["FROM", "TO"]).isNone then expectedHere "FROM or TO"
  unless ← acceptWord "STDIN" <||> acceptWord "STDOUT" do
    let _ ← acceptWord "PROGRAM"
    literalText
  restOfStatement

def mergeRows (rules : Rules) : Recognizer Unit := do
  let _ ← acceptWord "INTO"
  anyTable rules
  requireWord "USING"
  anyTable rules
  requireWord "ON"
  anyExpression rules
  restOfStatement

def cursor (rules : Rules) : Recognizer Unit := do
  commaSeparated name
  let _ ← acceptWord "BINARY"
  let _ ← acceptOneOf ["INSENSITIVE", "ASENSITIVE"]
  let _ ← acceptWord "NO"
  let _ ← acceptWord "SCROLL"
  requireWord "CURSOR"
  let _ ← acceptWords ["WITH", "HOLD"] <||> acceptWords ["WITHOUT", "HOLD"]
  requireWord "FOR"
  rules .query

def pragmaValue : Recognizer Unit := do
  match (← peek).map Item.token with
  | some (.number _ _) | some (.placeholder _) | some (.string .plain _) => skip
  | _ => expectedHere "number or string or ? placeholder"

/-- What other statements than queries hold after their keyword. -/
def commandBody (rules : Rules) (keyword : String) : Recognizer Unit := do
  let d ← dialect
  match keyword with
  | "KILL" =>
    let _ ← acceptOneOf ["CONNECTION", "QUERY", "MUTATION"]
    wholeNumber
  | "FLUSH" | "REPLACE" =>
    unless d == .ansi do failAt ("Unsupported statement " ++ keyword) (← peek)
    if keyword == "REPLACE" then insertion rules else restOfStatement
  | "ANALYZE" =>
    requireWord "TABLE"
    objectName
    restOfStatement
  | "TRUNCATE" =>
    let _ ← acceptWord "TABLE"
    let _ ← acceptWord "ONLY"
    objectNames
    restOfStatement
  | "ATTACH" => attachment rules
  | "DETACH" =>
    let _ ← acceptWord "DATABASE"
    let _ ← acceptWords ["IF", "EXISTS"]
    name
  | "MSCK" =>
    let _ ← acceptWord "REPAIR"
    requireWord "TABLE"
    objectName
    restOfStatement
  | "CREATE" => creation
  | "CACHE" | "UNCACHE" | "OPTIMIZE" | "RENAME" =>
    if keyword == "CACHE" then
      let _ ← acceptWord "LAZY"
    requireWord "TABLE"
    let _ ← acceptWords ["IF", "EXISTS"]
    objectName
    if keyword == "RENAME" then requireWord "TO"
    restOfStatement
  | "DROP" => removal
  | "DISCARD" =>
    unless (← acceptOneOf ["ALL", "PLANS", "SEQUENCES", "TEMP", "TEMPORARY"]).isSome do
      expectedHere "ALL, PLANS, SEQUENCES, TEMP or TEMPORARY after DISCARD"
  | "DECLARE" => cursor rules
  | "DELETE" => deletion rules
  | "INSERT" => insertion rules
  | "UPDATE" => update rules
  | "ALTER" =>
    let _ ← requireOneOf ["VIEW", "TABLE", "INDEX", "ROLE", "POLICY"]
    let _ ← acceptWords ["IF", "EXISTS"]
    objectName
    restOfStatement
  | "CALL" =>
    objectName
    if ← symbolAt 0 .leftParen then
      let _ ← call rules
  | "COPY" => copy rules
  | "CLOSE" | "UNLISTEN" | "SAVEPOINT" | "LISTEN" | "INSTALL" | "LOAD" =>
    unless ← pure (keyword == "UNLISTEN") <&&> accept .star do name
  | "USE" => objectName
  | "START" =>
    requireWord "TRANSACTION"
    transactionModes
  | "BEGIN" =>
    if d == .ansi then
      let _ ← acceptOneOf ["DEFERRED", "IMMEDIATE", "EXCLUSIVE"]
    let _ ← acceptOneOf ["TRANSACTION", "WORK"]
    transactionModes
  | "END" | "COMMIT" => transactionChain
  | "ROLLBACK" =>
    transactionChain
    if ← acceptWord "TO" then
      let _ ← acceptWord "SAVEPOINT"
      name
  | "RELEASE" =>
    let _ ← acceptWord "SAVEPOINT"
    name
  | "ASSERT" =>
    anyExpression rules
    afterWord "AS" (anyExpression rules)
  | "DEALLOCATE" =>
    let _ ← acceptWord "PREPARE"
    name
  | "EXECUTE" =>
    objectName
    if ← accept .leftParen then
      expressions rules
      require .rightParen
    afterWord "USING" (expressions rules)
  | "PREPARE" =>
    name
    if ← accept .leftParen then
      commaSeparated do
        let _ ← rules .dataType
      require .rightParen
    requireWord "AS"
    let _ ← rules .statement
  | "MERGE" => mergeRows rules
  | "NOTIFY" =>
    name
    if ← accept .comma then literalText
  | "PRAGMA" =>
    objectName
    if ← accept .leftParen then
      pragmaValue
      require .rightParen
    else if ← accept .equal then pragmaValue
  | "UNLOAD" =>
    queryInParentheses rules
    requireWord "TO"
    name
    restOfStatement
  | "COMMENT" =>
    let _ ← acceptWords ["IF", "EXISTS"]
    requireWord "ON"
    if (← acceptOneOf
        ["COLUMN", "TABLE", "EXTENSION", "SCHEMA", "DATABASE", "USER", "ROLE"]).isNone then
      expectedHere "comment object_type"
    objectName
    requireWord "IS"
    unless ← acceptWord "NULL" do literalText
  | _ =>
    if (← peek).isNone then expectedHere "identifier"
    restOfStatement

def commonCommands : List String :=
  ["KILL", "FLUSH", "ANALYZE", "TRUNCATE", "ATTACH", "MSCK", "CREATE", "CACHE", "DROP", "DISCARD",
    "DECLARE", "FETCH", "DELETE", "INSERT", "REPLACE", "UNCACHE", "UPDATE", "ALTER", "CALL",
    "COPY", "CLOSE", "SET", "SHOW", "USE", "GRANT", "REVOKE", "START", "BEGIN", "END",
    "SAVEPOINT", "RELEASE", "COMMIT", "ROLLBACK", "ASSERT", "DEALLOCATE", "EXECUTE", "EXEC",
    "PREPARE", "MERGE", "PRAGMA", "UNLOAD", "RENAME", "LOAD"]

def startsCommand (d : Dialect) (keyword : String) : Bool :=
  commonCommands.contains keyword ||
    match keyword with
    | "DETACH" | "INSTALL" => d.extensionStatements
    | "OPTIMIZE" => d == .ansi
    | "COMMENT" => d.commentStatements
    | "LISTEN" | "UNLISTEN" | "NOTIFY" => d.channelStatements
    | _ => false

/-- Keywords that ask how a statement is run, or what a table holds. -/
def explainWords : List String :=
  ["EXPLAIN", "DESCRIBE", "DESC"]

/-- The word that shows a statement, where it is not the keyword itself. -/
def shownCommand (keyword : String) : String :=
  match keyword with
  | "END" => "COMMIT"
  | "EXEC" => "EXECUTE"
  | keyword => keyword

/-- A question about a statement or a table, after the keyword. -/
def explanation (rules : Rules) (keyword : String) : Recognizer Unit := do
  if ← pure (keyword == "EXPLAIN") <&&> accept .leftParen then
    commaSeparated do
      name
      repeatFrom () fun _ => do
        if (← symbolAt 0 .comma) || (← symbolAt 0 .rightParen) || (← peek).isNone then return none
        skip
        return some ()
    require .rightParen
  else if ← acceptWords ["QUERY", "PLAN"] then return
  else if ← acceptWord "ESTIMATE" then return
  else
    let _ ← acceptWord "ANALYZE"
    let _ ← acceptWord "VERBOSE"
    if ← acceptWord "FORMAT" then
      let _ ← requireOneOf ["TEXT", "JSON", "GRAPHVIZ"]
  match ← attempt (rules .statement) with
  | some (.command word) =>
    if explainWords.contains word then fail "Explain must be root of the plan"
  | some .query => return
  | none =>
    let _ ← acceptOneOf ["EXTENDED", "FORMATTED"]
    objectName

def statement (rules : Rules) : Recognizer Statement :=
  nested do
    let d ← dialect
    let item ← next
    match item with
    | some ⟨.symbol .leftParen, _, _⟩ =>
      back
      rules .query
      return .query
    | some ⟨.word _ _, keyword, _⟩ =>
      if ["SELECT", "WITH", "VALUES"].contains keyword then
        back
        rules .query
        return .query
      else if explainWords.contains keyword then
        explanation rules keyword
        return .command keyword
      else if startsCommand d keyword then
        let word := shownCommand keyword
        let inside ← if ← symbolAt 0 .leftParen then keywordAt 1 else pure ""
        commandBody rules word
        return .command (if word == "UNLOAD" then word ++ "(" ++ inside else word)
      else expected "an SQL statement" item
    | _ => expected "an SQL statement" item

/-- Every rule, usable to a bounded depth. -/
def rulesWithin : Nat → Rules
  | 0, _ => throw .tooDeep
  | depth + 1, rule =>
    let rules := rulesWithin depth
    match rule with
    | .statement => statement rules
    | .query => query rules
    | .body strength => queryBody rules strength
    | .expression strength => boundExpression rules strength
    | .operand => operand rules
    | .tableFactor => tableFactor rules
    | .documentColumn => documentColumn rules
    | .dataType => dataType rules

/-- Statements with semicolons between them. A lone `END` after a statement ends the text. -/
def statements (rules : Rules) : Recognizer (List Statement) := do
  let (found, _) ← repeatFrom (([] : List Statement), false) fun (found, pending) => do
    let separated ← repeatFrom false fun _ => do
      return if ← accept .semicolon then some true else none
    let pending := pending && !separated
    let item ← peek
    if item.isNone then return none
    if pending then
      if item.map Item.keyword == some "END" then return none
      expected "end of statement" item
    let read ← rules .statement
    return some (read :: found, true)
  return found.reverse

/-- How deeply statements, queries and expressions may be nested. -/
def depthLimit : Nat := 50

/-- The statements of a text that was cut into tokens. -/
def statementsOf (d : Dialect) (lexemes : List Lexeme) : Except Failure (List Statement) :=
  let items := (lexemes.filterMap Item.ofLexeme?).toArray
  let rules := rulesWithin (16 * (items.size + depthLimit))
  ((statements rules).run ⟨d, items⟩ |>.run ⟨0, depthLimit⟩).map Prod.fst

end QueryBuild.Query.Grammar

import QueryBuild.Query.Grammar.Basic
/-!
# Types

The names of types with their lengths, precisions and element types.
-/

namespace QueryBuild.Query.Grammar

def plainTypes : List String :=
  ["BOOLEAN", "BOOL", "REAL", "FLOAT4", "FLOAT32", "FLOAT64", "FLOAT8", "INT16", "INT32", "INT64",
    "INT128", "INT256", "UINT8", "UINT16", "UINT32", "UINT64", "UINT128", "UINT256", "UUID",
    "DATE", "DATE32", "JSON", "JSONB", "REGCLASS", "TEXT", "TINYTEXT", "MEDIUMTEXT", "LONGTEXT",
    "TINYBLOB", "MEDIUMBLOB", "LONGBLOB", "BYTEA", "TRIGGER"]

def precisionTypes : List String :=
  ["FLOAT", "CLOB", "BINARY", "VARBINARY", "BLOB", "BYTES", "DATETIME", "TIMESTAMPTZ", "TIMETZ",
    "STRING"]

/-- Types with an optional precision that may be unsigned. -/
def integerTypes : List String :=
  ["TINYINT", "INT2", "SMALLINT", "MEDIUMINT", "INT", "INT4", "INT8", "INTEGER", "BIGINT"]

def decimalTypes : List String :=
  ["NUMERIC", "DECIMAL", "DEC", "BIGNUMERIC", "BIGDECIMAL"]

def optionalLength : Recognizer Unit := do
  if ← accept .leftParen then
    unless ← acceptWord "MAX" do
      wholeNumber
      let _ ← acceptOneOf ["CHARACTERS", "OCTETS"]
    require .rightParen

def timeType : Recognizer Unit := do
  optionalPrecision
  if ← acceptWord "WITH" then requireWords ["TIME", "ZONE"]
  else if ← acceptWord "WITHOUT" then requireWords ["TIME", "ZONE"]

def stringValues : Recognizer Unit := do
  require .leftParen
  let _ ← repeatFrom false fun done => do
    if done then return none
    let item ← next
    match item.map Item.token with
    | some (.string .plain _) => pure ()
    | _ => expected "a string" item
    let item ← next
    match item.map Item.token with
    | some (.symbol .comma) => return some false
    | some (.symbol .rightParen) => return some true
    | _ => expected ", or \x7d" item

/-- Words, numbers and strings in parentheses after the name of a type. -/
def typeModifiers : Recognizer Unit := do
  if ← accept .leftParen then
    let _ ← repeatFrom false fun done => do
      if done then return none
      let item ← next
      match item.map Item.token with
      | some (.word _ _) | some (.number _ _) | some (.string .plain _)
      | some (.symbol .comma) => return some false
      | some (.symbol .rightParen) => return some true
      | _ => expected "type modifiers" item

/-- The end of a type in angle brackets. -/
def closeAngle : Recognizer Unit := do
  unless ← accept .greater <||> accept .shiftRight do expectedHere ">"

def typedField (rules : Rules) : Recognizer Unit := do
  name
  let _ ← rules .dataType

/-- A field of a structure in angle brackets, whose name may be missing. -/
def structureField (rules : Rules) : Recognizer Unit := do
  match (← peekAt 0).map Item.token, (← peekAt 1).map Item.token with
  | some (.word _ _), some (.word _ _) => name
  | _, _ => pure ()
  let _ ← rules .dataType

/-- The fields of a structure in angle brackets, if any; answers whether there are some. -/
def structureFields (rules : Rules) : Recognizer Bool := do
  if ← accept .less then
    let _ ← separatedBy false (structureField rules)
    closeAngle
    return true
  else return false

/-- The type that a keyword names, read up to its brackets. -/
def namedType (rules : Rules) (keyword : String) : Recognizer TypeShape := do
  let d ← dialect
  if plainTypes.contains keyword then return .known
  if precisionTypes.contains keyword then
    optionalPrecision
    return .known
  if integerTypes.contains keyword then
    optionalPrecision
    let _ ← acceptWord "UNSIGNED"
    return .known
  if decimalTypes.contains keyword then
    optionalPrecisionAndScale
    return .known
  match keyword with
  | "DOUBLE" =>
    unless ← acceptWord "PRECISION" do optionalPrecisionAndScale
    return .known
  | "VARCHAR" | "NVARCHAR" =>
    optionalLength
    return .known
  | "CHARACTER" | "CHAR" =>
    if ← acceptWord "VARYING" then optionalLength
    else if ← acceptWords ["LARGE", "OBJECT"] then optionalPrecision
    else optionalLength
    return .known
  | "BIT" =>
    let _ ← acceptWord "VARYING"
    optionalPrecision
    return .known
  | "TIMESTAMP" | "TIME" =>
    timeType
    return .known
  | "INTERVAL" => return .interval
  | "FIXEDSTRING" =>
    parenthesized wholeNumber
    return .known
  | "DATETIME64" =>
    require .leftParen
    wholeNumber
    if ← accept .comma then literalText
    require .rightParen
    return .known
  | "ENUM" | "ENUM8" | "ENUM16" | "SET" =>
    stringValues
    return .known
  | "ARRAY" =>
    require .less
    let _ ← rules .dataType
    closeAngle
    return .known
  | "STRUCT" =>
    match d with
    | .duckdb =>
      parenthesized (commaSeparated (typedField rules))
      return .known
    | .ansi =>
      let _ ← structureFields rules
      return .known
    | .postgres => pure ()
  | "UNION" =>
    unless d == .postgres do
      parenthesized (commaSeparated (typedField rules))
      return .known
  | "NULLABLE" | "LOWCARDINALITY" =>
    if d == .ansi then
      parenthesized do
        let _ ← rules .dataType
      return .known
  | "MAP" =>
    if d == .ansi then
      parenthesized do
        let _ ← rules .dataType
        require .comma
        let _ ← rules .dataType
      return .known
  | "NESTED" | "TUPLE" =>
    if d == .ansi then
      parenthesized (commaSeparated (structureField rules))
      return .known
  | "ANY" => if ← acceptWord "TYPE" then return .known
  | _ => pure ()
  back
  objectName
  typeModifiers
  return .custom

/-- A type, with the brackets of arrays after it. -/
def dataType (rules : Rules) : Recognizer TypeShape := do
  let item ← next
  let shape ←
    match item with
    | some ⟨.word _ _, keyword, _⟩ => namedType rules keyword
    | _ => expected "a data type name" item
  repeatFrom shape fun _ => do
    if ← accept .leftBracket then
      let _ ← attempt wholeNumber
      require .rightBracket
      return some .known
    else return none

end QueryBuild.Query.Grammar

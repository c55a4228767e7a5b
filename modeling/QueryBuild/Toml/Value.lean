import QueryBuild.Toml.Number
/-!
# TOML values and keys

A value of any kind, with the keys that arrays and tables between brackets and braces need. Brackets
and braces may be nested up to a fixed depth.
-/

namespace QueryBuild.Toml.Reader

/-- How deep brackets and braces may be nested, and how many parts a key may have. -/
def depthLimit : Nat := 80

def isBare (c : Char) : Bool :=
  c.isAlphanum || c == '-' || c == '_'

def simpleKey : Reader Key := do
  let (span, name) ← spanned do
    match ← next? with
    | some '"' => basicString
    | some '\'' => literalString
    | _ =>
      let first ← satisfy isBare
      return String.ofList (first :: (← takeWhile isBare))
  return ⟨name, span⟩

/-- Reads a key: its parts with dots between them. -/
def key : Reader (List Key) :=
  convert
    (named "key" <|
      separated (do blanks; let k ← simpleKey; blanks; return k) (char '.'))
    fun parts => if depthLimit < parts.length then .error (some .tooDeep) else .ok parts

def comment : Reader Unit := do
  let _ ← char '#'
  let _ ← takeWhile isPlain

/-- Leaves out blanks, line ends and comments. -/
def gap : Reader Unit := do
  let _ ← many <| orElse (do let _ ← satisfy isBlank) <| orElse newline comment

def splitKey (parts : List Key) : List Key × Key :=
  (parts.dropLast, parts.getLastD default)

def tableOfPairs (pairs : List (List Key × Node)) : Except (Option Cause) (Table Node) :=
  let step (t : Table Node) (pair : List Key × Node) : Except Clash (Table Node) :=
    let (path, key) := splitKey pair.1
    t.assign .braces path key pair.2 none
  (pairs.foldlM step (Table.empty .inline)).mapError fun clash => some (.clash clash)

/-- Adds what is said of a value that starts like none. -/
def expectingString {α : Type} (r : Reader α) : Reader α :=
  ((named "string" r).expectingChar '"').expectingChar '\''

def word (text : String) (span : Span → Node) : Reader Node := do
  let (s, _) ← spanned (literal text.toList)
  return span s

/-- Reads an array; `item` reads its values. -/
def array (item : Reader Node) : Reader Node := do
  let (span, items) ← spanned do
    let _ ← char '['
    let items ← commit do
      if (← next?) == some ']' then pure []
      else
        match ← optional (separated (do gap; let v ← item; gap; return v) (char ',')) with
        | some items =>
          let _ ← optional (char ',')
          gap
          pure items
        | none =>
          gap
          pure []
    let _ ← commit ((named "array" (char ']')).expectingChar ']')
    return items
  return .array span items

def equals : Reader Unit := do
  let _ ← ((char '=').expectingChar '.').expectingChar '='

def braces (item : Reader Node) : Reader Node := do
  let (span, content) ← spanned do
    let _ ← char '\x7b'
    let content ← commit <| convert
      (do
        let pairs ← optional <| separated
          (do
            let k ← key
            commit do
              equals
              blanks
              let v ← item
              blanks
              return (k, v))
          (char ',')
        blanks
        return pairs.getD [])
      tableOfPairs
    let _ ← commit ((named "inline table" (char '\x7d')).expectingChar '\x7d')
    return content
  return .table { content with span := some span }

/-- Reads a value inside `depthLimit - depth` brackets and braces. -/
def value (depth : Nat) : Reader Node := do
  match ← next? with
  | some '"' | some '\'' =>
    let (span, s) ← spanned anyString
    return .string span s
  | some '[' =>
    match depth with
    | 0 => commit (failWith .tooDeep)
    | depth + 1 => array (value depth)
  | some '\x7b' =>
    match depth with
    | 0 => commit (failWith .tooDeep)
    | depth + 1 => braces (value depth)
  | some '_' => expecting "leading digit" wholeNode
  | some '.' => expecting "leading digit" floatNode
  | some 't' => expectingString (commit (word "true" fun span => .boolean span true))
  | some 'f' => expectingString (commit (word "false" fun span => .boolean span false))
  | some 'i' => expectingString (word "inf" fun span => .float span (1.0 / 0.0))
  | some 'n' => expectingString (word "nan" fun span => .float span (0.0 / 0.0))
  | some c =>
    if c == '+' || c == '-' || c.isDigit then
      orElse momentNode (orElse floatNode wholeNode)
    else expectingString fail
  | none => fail
where
  wholeNode : Reader Node := do
    let (span, n) ← spanned integer
    return .integer span n
  floatNode : Reader Node := do
    let (span, x) ← spanned float
    return .float span x
  momentNode : Reader Node := do
    let (span, _) ← spanned moment
    return .moment span

end QueryBuild.Toml.Reader

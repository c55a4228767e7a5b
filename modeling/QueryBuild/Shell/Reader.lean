import QueryBuild.Shell.Command
import QueryBuild.Text.Blank
/-!
# Reading scripts

A script is read line by line: a line that cannot be read ends the script, and the commands of the
lines before it stand. Every reader takes a bound on its steps, which the length of the script
gives.
-/

namespace QueryBuild.Shell

/-- A text that a redirection has announced and that follows the line. -/
structure Announced where
  id : Nat
  closing : List Char
  /-- Whether nothing in the text is replaced. -/
  literal : Bool
  dropTabs : Bool
deriving Inhabited

/-- What is left of a script. -/
structure Cursor where
  rest : List Char
  line : Nat
  announced : List Announced
  documents : List (Nat × Word)
  nextDocument : Nat
deriving Inhabited

abbrev Reader := StateT Cursor (Except Misreading)

namespace Reader

def fail {α : Type} (reason : String) : Reader α := do
  throw ⟨(← get).line, "Syntax error: " ++ reason⟩

def setRest (rest : List Char) : Reader Unit :=
  modify fun s => { s with rest := rest }

/-- Passes over text, counting its lines. -/
def pass (text rest : List Char) : Reader Unit :=
  modify fun s => { s with rest := rest, line := s.line + text.count '\n' }

def isNameStart (c : Char) : Bool :=
  c.isAlpha || c == '_'

def isNameChar (c : Char) : Bool :=
  c.isAlphanum || c == '_'

def isSpecialParameter (c : Char) : Bool :=
  c.isDigit || ['@', '*', '#', '?', '-', '$', '!'].contains c

def endsWord (c : Char) : Bool :=
  [' ', '\t', '\n', ';', '&', '|', '<', '>', '(', ')'].contains c

/-- The text up to the parenthesis that closes an open one, and what follows it. -/
def untilClosed (depth : Nat) (quote : Option Char) : List Char →
    Option (List Char × List Char)
  | [] => none
  | '\\' :: c :: rest =>
    if quote == some '\'' && c == '\'' then
      (untilClosed depth none rest).map fun (text, rest) => ('\\' :: c :: text, rest)
    else (untilClosed depth quote rest).map fun (text, rest) => ('\\' :: c :: text, rest)
  | c :: rest =>
    match quote with
    | some q =>
      (untilClosed depth (if c == q then none else quote) rest).map
        fun (text, rest) => (c :: text, rest)
    | none =>
      if c == ')' && depth == 0 then some ([], rest)
      else
        let depth := if c == '(' then depth + 1 else if c == ')' then depth - 1 else depth
        let quote := if c == '\'' || c == '"' then some c else none
        (untilClosed depth quote rest).map fun (text, rest) => (c :: text, rest)

/-- The script between backquotes, and what follows it. -/
def untilBackquote (inQuotes : Bool) : List Char → Option (List Char × List Char)
  | [] => none
  | '\x60' :: rest => some ([], rest)
  | '\\' :: c :: rest =>
    let special := c == '\x60' || c == '\\' || c == '$' || (inQuotes && c == '"')
    (untilBackquote inQuotes rest).map fun (text, rest) =>
      (if special then c :: text else '\\' :: c :: text, rest)
  | c :: rest => (untilBackquote inQuotes rest).map fun (text, rest) => (c :: text, rest)

/-- Where pieces are read. -/
inductive Place where
  | bare
  | quotes
  /-- In a text of the script or an arithmetic expression. -/
  | document
deriving DecidableEq

/-- The characters that a backslash takes their meaning from. -/
def Place.isEscaped (place : Place) (c : Char) : Bool :=
  match place with
  | .bare => true
  | .quotes => ['$', '\x60', '"', '\\'].contains c
  | .document => ['$', '\x60', '\\'].contains c

mutual

/-- Reads pieces up to a character that stops them. -/
def pieces : Nat → Place → (Char → Bool) → Reader (List Piece)
  | 0, _, _ => fail "too long"
  | fuel + 1, place, stop => do
    let inQuotes := place != .bare
    match (← get).rest with
    | [] => return []
    | '\\' :: '\n' :: rest =>
      pass ['\n'] rest
      pieces fuel place stop
    | '\\' :: c :: rest =>
      if place.isEscaped c then
        pass [c] rest
        return .quoted c :: (← pieces fuel place stop)
      else
        setRest (c :: rest)
        return .quoted '\\' :: (← pieces fuel place stop)
    | c :: rest =>
      if stop c then return []
      else if c == '$' then
        setRest rest
        let first ← afterDollar fuel inQuotes
        return first ++ (← pieces fuel place stop)
      else if c == '\x60' then
        match untilBackquote inQuotes rest with
        | none => fail "EOF in backquote substitution"
        | some (script, after) =>
          let line := (← get).line
          pass script after
          return .output script line inQuotes :: (← pieces fuel place stop)
      else if c == '\'' && place == .bare then
        let text := rest.takeWhile (· != '\'')
        match rest.drop text.length with
        | [] => fail "Unterminated quoted string"
        | _ :: after =>
          pass text after
          return .quotes :: text.map Piece.quoted ++ (← pieces fuel place stop)
      else if c == '"' && place == .bare then
        setRest rest
        let inner ← pieces fuel .quotes (· == '"')
        match (← get).rest with
        | [] => fail "Unterminated quoted string"
        | _ :: after =>
          setRest after
          return .quotes :: inner ++ (← pieces fuel place stop)
      else if c == '"' && place == .quotes then
        setRest rest
        pieces fuel place stop
      else
        pass [c] rest
        return (if inQuotes then .quoted c else .bare c) :: (← pieces fuel place stop)

def afterDollar : Nat → Bool → Reader (List Piece)
  | 0, _ => fail "too long"
  | fuel + 1, inQuotes => do
    match (← get).rest with
    | '(' :: '(' :: rest =>
      match untilClosed 0 none rest with
      | some (inner, ')' :: after) =>
        let outer ← get
        set { outer with rest := inner }
        let expression ← pieces fuel .document fun _ => false
        set { outer with rest := after }
        return [.number expression inQuotes]
      | _ => fail "Missing '))'"
    | '(' :: rest =>
      match untilClosed 0 none rest with
      | none => fail "end of file unexpected (expecting \")\")"
      | some (script, after) =>
        let line := (← get).line
        pass script after
        return [.output script line inQuotes]
    | '\x7b' :: rest =>
      setRest rest
      return [← inBraces fuel inQuotes]
    | c :: rest =>
      if isNameStart c then
        let name := (c :: rest).takeWhile isNameChar
        setRest ((c :: rest).drop name.length)
        return [.parameter (String.ofList name) .value inQuotes]
      else if isSpecialParameter c then
        setRest rest
        return [.parameter (String.ofList [c]) .value inQuotes]
      else return [if inQuotes then .quoted '$' else .bare '$']
    | [] => return [if inQuotes then .quoted '$' else .bare '$']

def inBraces : Nat → Bool → Reader Piece
  | 0, _ => fail "too long"
  | fuel + 1, inQuotes => do
    let all := (← get).rest
    let nameOf (cs : List Char) : List Char × List Char :=
      match cs with
      | c :: rest =>
        if isNameStart c then cs.span isNameChar
        else if c.isDigit then cs.span Char.isDigit
        else if isSpecialParameter c then ([c], rest)
        else ([], cs)
      | [] => ([], [])
    -- A number sign asks for a length only if a name and nothing else follows.
    let lengthOf : Option (List Char × List Char) :=
      match all with
      | '#' :: rest =>
        match nameOf rest with
        | ([], _) => none
        | (name, '\x7d' :: after) => some (name, after)
        | _ => none
      | _ => none
    match lengthOf with
    | some (name, after) =>
      setRest after
      return .parameter (String.ofList name) .length inQuotes
    | none =>
      let (name, rest) := nameOf all
      let within (place : Place) (rest : List Char) (use : List Piece → Use) : Reader Piece := do
        setRest rest
        let inner ← pieces fuel place (· == '\x7d')
        match (← get).rest with
        | [] => fail "Missing '\x7d'"
        | _ :: after =>
          setRest after
          return .parameter (String.ofList name) (use inner) inQuotes
      let word := within (if inQuotes then .quotes else .bare)
      let pattern := within .bare
      if name.isEmpty then fail "Bad substitution"
      else match rest with
        | '\x7d' :: after =>
          setRest after
          return .parameter (String.ofList name) .value inQuotes
        | ':' :: '-' :: after => word after (.otherwise true)
        | '-' :: after => word after (.otherwise false)
        | ':' :: '=' :: after => word after (.assign true)
        | '=' :: after => word after (.assign false)
        | ':' :: '?' :: after => word after (.require true)
        | '?' :: after => word after (.require false)
        | ':' :: '+' :: after => word after (.instead true)
        | '+' :: after => word after (.instead false)
        | '%' :: '%' :: after => pattern after (.cut .back true)
        | '%' :: after => pattern after (.cut .back false)
        | '#' :: '#' :: after => pattern after (.cut .front true)
        | '#' :: after => pattern after (.cut .front false)
        | [] => fail "Missing '\x7d'"
        | _ => fail "Bad substitution"

end

/-- The text of a word that holds no quotes and nothing to replace. -/
def plainText? (word : Word) : Option (List Char) :=
  word.mapM fun piece =>
    match piece with
    | .bare c => some c
    | _ => none

/-- The characters of a word as they are written, without quotes. -/
def literalText (word : Word) : List Char :=
  word.filterMap fun piece =>
    match piece with
    | .bare c | .quoted c => some c
    | _ => none

def hasQuotes (word : Word) : Bool :=
  word.any fun piece =>
    match piece with
    | .bare _ => false
    | _ => true

/-- Passes over blanks, comments and ends of lines that do not count. -/
def dropBlanks : List Char → List Char × Nat
  | ' ' :: rest => dropBlanks rest
  | '\t' :: rest => dropBlanks rest
  | '\\' :: '\n' :: rest =>
    let (rest, lines) := dropBlanks rest
    (rest, lines + 1)
  | '#' :: rest => (rest.dropWhile (· != '\n'), 0)
  | rest => (rest, 0)

def skipBlanks : Reader Unit :=
  modify fun s =>
    let (rest, lines) := dropBlanks s.rest
    { s with rest := rest, line := s.line + lines }

/-- The lines up to a closing one, and what follows it. -/
def untilLine (a : Announced) : List (List Char) → List (List Char) × List (List Char)
  | [] => ([], [])
  | line :: lines =>
    let line := if a.dropTabs then line.dropWhile (· == '\t') else line
    if Text.dropTail (· == '\n') line == a.closing then ([], lines)
    else
      let (before, after) := untilLine a lines
      (line :: before, after)

def document (fuel : Nat) (a : Announced) : Reader Unit := do
  let s ← get
  let (body, after) := untilLine a (Text.splitAfter (· == '\n') s.rest)
  let text := body.flatten
  let word ← if a.literal then pure (text.map Piece.quoted) else do
    set { s with rest := text }
    pieces fuel .document fun _ => false
  set { s with
    rest := after.flatten
    line := s.line + (s.rest.count '\n' - after.flatten.count '\n')
    documents := (a.id, word) :: s.documents }

/-- Passes over the end of a line and reads the texts that follow it. -/
def endLine (fuel : Nat) : Reader Unit := do
  let s ← get
  set { s with rest := s.rest.drop 1, line := s.line + 1, announced := [] }
  for a in s.announced.reverse do
    document fuel a

def skipLines : Nat → Reader Unit
  | 0 => return ()
  | fuel + 1 => do
    skipBlanks
    match (← get).rest with
    | '\n' :: _ =>
      endLine (fuel + 1)
      skipLines fuel
    | _ => return ()

def reserved : List String :=
  ["if", "then", "elif", "else", "fi", "while", "until", "for", "do", "done", "case", "esac",
    "\x7b", "\x7d", "!", "in"]

/-- The words that end a list of commands. -/
def closing : List String :=
  ["then", "elif", "else", "fi", "do", "done", "esac", "\x7d"]

/-- The word at the cursor, which stays where it is. -/
def peek (fuel : Nat) : Reader Word := do
  let s ← get
  let word ← pieces fuel .bare endsWord
  set s
  return word

def peekPlain (fuel : Nat) : Reader String := do
  skipBlanks
  return String.ofList ((plainText? (← peek fuel)).getD [])

/-- What stands at the cursor, in the words of a message. -/
def found (fuel : Nat) : Reader String := do
  match (← get).rest with
  | [] => return "end of file"
  | '\n' :: _ => return "newline"
  | ';' :: ';' :: _ => return "\";;\""
  | '&' :: '&' :: _ => return "\"&&\""
  | '|' :: '|' :: _ => return "\"||\""
  | c :: _ =>
    if c == '<' || c == '>' then return "redirection"
    else if [';', '&', '|', '(', ')'].contains c then return String.ofList ['"', c, '"']
    else
      let word ← peekPlain fuel
      return if reserved.contains word then "\"" ++ word ++ "\"" else "word"

def unexpected {α : Type} (fuel : Nat) (wanted : Option String) : Reader α := do
  skipBlanks
  let here ← found fuel
  let more := match wanted with
    | some word => " (expecting \"" ++ word ++ "\")"
    | none => ""
  fail (here ++ " unexpected" ++ more)

def expectWord (fuel : Nat) (word : String) : Reader Unit := do
  if (← peekPlain fuel) == word then
    modify fun s => { s with rest := s.rest.drop word.length }
  else unexpected fuel (some word)

def expectOperator (fuel : Nat) (c : Char) : Reader Unit := do
  skipBlanks
  if (← get).rest.head? == some c then modify fun s => { s with rest := s.rest.drop 1 }
  else unexpected fuel (some (String.ofList [c]))

def word (fuel : Nat) : Reader Word := do
  skipBlanks
  match ← pieces fuel .bare endsWord with
  | [] => unexpected fuel none
  | found => return found

def redirection? (fuel : Nat) : Reader (Option Redirection) := do
  skipBlanks
  let s ← get
  let (digits, rest) := s.rest.span Char.isDigit
  let number (standard : Nat) : Nat :=
    if digits.isEmpty then standard else Nat.ofDigitChars 10 digits 0
  let onto (rest : List Char) (standard : Nat) (direction : Direction) :
      Reader (Option Redirection) := do
    setRest rest
    return some ⟨number standard, direction, ← word fuel⟩
  let text (rest : List Char) (dropTabs : Bool) : Reader (Option Redirection) := do
    setRest rest
    let closing ← word fuel
    let id := (← get).nextDocument
    modify fun s => { s with
      nextDocument := id + 1
      announced := ⟨id, literalText closing, hasQuotes closing, dropTabs⟩ :: s.announced }
    return some ⟨number 0, .document id, []⟩
  match rest with
  | '>' :: '>' :: rest => onto rest 1 .append
  | '>' :: '&' :: rest => onto rest 1 .copy
  | '>' :: '|' :: rest => onto rest 1 .write
  | '>' :: rest => onto rest 1 .write
  | '<' :: '<' :: '-' :: rest => text rest true
  | '<' :: '<' :: rest => text rest false
  | '<' :: '&' :: rest => onto rest 0 .copy
  | '<' :: '>' :: rest => onto rest 0 .read
  | '<' :: rest => onto rest 0 .read
  | _ => return none

def redirections : Nat → Reader (List Redirection)
  | 0 => return []
  | fuel + 1 => do
    match ← redirection? fuel with
    | none => return []
    | some r => return r :: (← redirections fuel)

/-- A word that assigns a value to a name. -/
def assignment? (word : Word) : Option (String × Word) :=
  let name := word.takeWhile fun piece =>
    match piece with
    | .bare c => isNameChar c
    | _ => false
  match word.drop name.length with
  | .bare '=' :: value =>
    match literalText name with
    | c :: rest => if isNameStart c then some (String.ofList (c :: rest), value) else none
    | [] => none
  | _ => none

/-- Reads the words, assignments and redirections of a simple command. -/
def simple : Nat → Nat → List (String × Word) → List Word → List Redirection → Reader Command
  | 0, line, assignments, words, redirs =>
    return .simple line assignments.reverse words.reverse redirs.reverse
  | fuel + 1, line, assignments, words, redirs => do
    match ← redirection? fuel with
    | some r => simple fuel line assignments words (r :: redirs)
    | none =>
      match ← pieces fuel .bare endsWord with
      | [] =>
        if assignments.isEmpty && words.isEmpty && redirs.isEmpty then unexpected fuel none
        else return .simple line assignments.reverse words.reverse redirs.reverse
      | w =>
        match if words.isEmpty then assignment? w else none with
        | some a => simple fuel line (a :: assignments) words redirs
        | none => simple fuel line assignments (w :: words) redirs

/-- Reads the words of a loop up to the end of the line. -/
def wordsOfLine : Nat → Reader (List Word)
  | 0 => return []
  | fuel + 1 => do
    skipBlanks
    match ← pieces fuel .bare endsWord with
    | [] => return []
    | w => return w :: (← wordsOfLine fuel)

/-- Reads the patterns of a branch up to the parenthesis that ends them. -/
def patterns : Nat → Reader (List Word)
  | 0 => return []
  | fuel + 1 => do
    let pattern ← word fuel
    skipBlanks
    match (← get).rest with
    | '|' :: rest =>
      setRest rest
      return pattern :: (← patterns fuel)
    | _ =>
      expectOperator fuel ')'
      return [pattern]

/-- Whether no command can start at the cursor. -/
def atEnd (fuel : Nat) : Reader Bool := do
  match (← get).rest with
  | [] => return true
  | ')' :: _ => return true
  | ';' :: ';' :: _ => return true
  | _ => return closing.contains (← peekPlain fuel)

mutual

/-- Reads commands up to something that ends them. -/
def list : Nat → Reader (List Command)
  | 0 => fail "too long"
  | fuel + 1 => do
    skipLines fuel
    if ← atEnd fuel then return []
    else
      let (first, more) ← item fuel
      if more then return first :: (← list fuel) else return [first]

/-- Reads a command and what separates it from the next one; tells whether there may be a next
one. -/
def item : Nat → Reader (Command × Bool)
  | 0 => fail "too long"
  | fuel + 1 => do
    let first ← conjunction fuel
    skipBlanks
    match (← get).rest with
    | '&' :: rest =>
      setRest rest
      return (.background first, true)
    | ';' :: ';' :: _ => return (first, false)
    | ';' :: rest =>
      setRest rest
      return (first, true)
    | '\n' :: _ =>
      endLine fuel
      return (first, true)
    | _ => return (first, false)

/-- Reads commands that are joined by their success or failure. -/
def conjunction : Nat → Reader Command
  | 0 => fail "too long"
  | fuel + 1 => do
    let first ← pipeline fuel
    joined fuel first

/-- Reads on after a command that may be joined with others. -/
def joined : Nat → Command → Reader Command
  | 0, _ => fail "too long"
  | fuel + 1, first => do
    skipBlanks
    match (← get).rest with
    | '&' :: '&' :: rest =>
      setRest rest
      skipLines fuel
      let second ← pipeline fuel
      joined fuel (.both first second)
    | '|' :: '|' :: rest =>
      setRest rest
      skipLines fuel
      let second ← pipeline fuel
      joined fuel (.either first second)
    | _ => return first

/-- Reads a pipeline, which may be negated. -/
def pipeline : Nat → Reader Command
  | 0 => fail "too long"
  | fuel + 1 => do
    let negated := (← peekPlain fuel) == "!"
    if negated then expectWord fuel "!"
    let commands ← piped fuel
    match negated, commands with
    | false, [only] => return only
    | _, _ => return .pipeline negated commands

def piped : Nat → Reader (List Command)
  | 0 => fail "too long"
  | fuel + 1 => do
    let first ← command fuel
    skipBlanks
    match (← get).rest with
    | '|' :: '|' :: _ => return [first]
    | '|' :: rest =>
      setRest rest
      skipLines fuel
      return first :: (← piped fuel)
    | _ => return [first]

def command : Nat → Reader Command
  | 0 => fail "too long"
  | fuel + 1 => do
    skipBlanks
    let line := (← get).line
    match (← get).rest with
    | '(' :: rest =>
      setRest rest
      let body ← list fuel
      expectOperator fuel ')'
      return .subshell (.sequence body) (← redirections fuel)
    | _ =>
      let first ← peekPlain fuel
      match first with
      | "\x7b" =>
        expectWord fuel first
        let body ← list fuel
        expectWord fuel "\x7d"
        return .group (.sequence body) (← redirections fuel)
      | "if" =>
        expectWord fuel first
        let found ← conditional fuel
        match ← redirections fuel with
        | [] => return found
        | changes => return .group found changes
      | "while" =>
        expectWord fuel first
        let test ← list fuel
        let body ← loopBody fuel
        return .repeated false (.sequence test) body (← redirections fuel)
      | "until" =>
        expectWord fuel first
        let test ← list fuel
        let body ← loopBody fuel
        return .repeated true (.sequence test) body (← redirections fuel)
      | "for" =>
        expectWord fuel first
        let name ← word fuel
        skipLines fuel
        let words ← if (← peekPlain fuel) == "in" then do
            expectWord fuel "in"
            pure (some (← wordsOfLine fuel))
          else pure none
        skipBlanks
        if (← get).rest.head? == some ';' then modify fun s => { s with rest := s.rest.drop 1 }
        skipLines fuel
        let body ← loopBody fuel
        return .each (String.ofList (literalText name)) words body (← redirections fuel)
      | "case" =>
        expectWord fuel first
        let subject ← word fuel
        skipLines fuel
        expectWord fuel "in"
        let found ← branches fuel
        return .choice subject found (← redirections fuel)
      | _ =>
        if closing.contains first then unexpected fuel none
        else match ← functionName? fuel with
          | some name =>
            skipLines fuel
            return .define name (← command fuel)
          | none => simple fuel line [] [] []

def loopBody : Nat → Reader Command
  | 0 => fail "too long"
  | fuel + 1 => do
    expectWord fuel "do"
    let body ← list fuel
    expectWord fuel "done"
    return .sequence body

/-- Reads a condition with its branches, without the redirections behind it. -/
def conditional : Nat → Reader Command
  | 0 => fail "too long"
  | fuel + 1 => do
    let test ← list fuel
    expectWord fuel "then"
    let yes ← list fuel
    match ← peekPlain fuel with
    | "elif" =>
      expectWord fuel "elif"
      return .conditional (.sequence test) (.sequence yes) (some (← conditional fuel)) []
    | "else" =>
      expectWord fuel "else"
      let no ← list fuel
      expectWord fuel "fi"
      return .conditional (.sequence test) (.sequence yes) (some (.sequence no)) []
    | _ =>
      expectWord fuel "fi"
      return .conditional (.sequence test) (.sequence yes) none []

def branches : Nat → Reader (List (List Word × Command))
  | 0 => fail "too long"
  | fuel + 1 => do
    skipLines fuel
    if (← peekPlain fuel) == "esac" then
      expectWord fuel "esac"
      return []
    else
      if (← get).rest.head? == some '(' then modify fun s => { s with rest := s.rest.drop 1 }
      let found ← patterns fuel
      let body ← list fuel
      skipLines fuel
      match (← get).rest with
      | ';' :: ';' :: rest =>
        setRest rest
        return (found, .sequence body) :: (← branches fuel)
      | _ =>
        if (← peekPlain fuel) == "esac" then
          expectWord fuel "esac"
          return [(found, .sequence body)]
        else unexpected fuel (some ";;")

/-- The name of a function that is defined at the cursor. -/
def functionName? : Nat → Reader (Option String)
  | 0 => return none
  | fuel + 1 => do
    let s ← get
    let name := (plainText? (← pieces fuel .bare endsWord)).getD []
    skipBlanks
    match name, (← get).rest with
    | _ :: _, '(' :: rest =>
      setRest rest
      expectOperator fuel ')'
      return some (String.ofList name)
    | _, _ =>
      set s
      return none

end

mutual

def line : Nat → Reader (List Command)
  | 0 => fail "too long"
  | fuel + 1 => do
    let first ← conjunction fuel
    skipBlanks
    match (← get).rest with
    | [] => return [first]
    | '\n' :: _ =>
      endLine fuel
      return [first]
    | '&' :: rest =>
      setRest rest
      restOfLine fuel (.background first)
    | ';' :: ';' :: _ => unexpected fuel none
    | ';' :: rest =>
      setRest rest
      restOfLine fuel first
    | _ => unexpected fuel none

def restOfLine : Nat → Command → Reader (List Command)
  | 0, _ => fail "too long"
  | fuel + 1, first => do
    skipBlanks
    match (← get).rest with
    | [] => return [first]
    | '\n' :: _ =>
      endLine fuel
      return [first]
    | _ => return first :: (← line fuel)

end

end Reader

/-- The lines of a script up to one that cannot be read. -/
def Script.lines (s : Cursor) : Nat → Script
  | 0 => ⟨[], s.documents, none⟩
  | fuel + 1 =>
    match (Reader.skipLines (fuel + 1)).run s with
    | .error e => ⟨[], s.documents, some e⟩
    | .ok (_, s) =>
      if s.rest.isEmpty then ⟨[], s.documents, none⟩
      else
        match (Reader.line (fuel + 1)).run s with
        | .error e => ⟨[], s.documents, some e⟩
        | .ok (commands, s) =>
          let rest := Script.lines s fuel
          { rest with commands := .sequence commands :: rest.commands }

/-- Reads a script; its texts are numbered from `nextDocument` on. -/
def Script.ofText (text : List Char) (line nextDocument : Nat) : Script :=
  Script.lines ⟨text, line, [], [], nextDocument⟩ (8 * text.length + 64)

end QueryBuild.Shell

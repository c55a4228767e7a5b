import QueryBuild.Toml.Node
/-!
# Readers with commitment

A reader that fails before it is committed lets another one try; once it is committed its failure
is the failure of the whole. A fault gathers what was being read and what was expected.
-/

namespace QueryBuild.Toml

/-- What lies behind a fault, beyond the characters. -/
inductive Cause where
  | outOfRange
  | tooDeep
  | numberTooLarge
  | numberTooSmall
  | clash (clash : Clash)
deriving DecidableEq, Inhabited

def Cause.text : Cause → String
  | outOfRange => "value is out of range"
  | tooDeep => "recursion limit exceeded"
  | numberTooLarge => "number too large to fit in target type"
  | numberTooSmall => "number too small to fit in target type"
  | clash c => c.text

structure Fault where
  offset : Nat
  subject : Option String
  /-- What could have followed. -/
  expected : List String
  cause : Option Cause
deriving DecidableEq, Inhabited

/-- The fault in words; there may be none. -/
def Fault.text (f : Fault) : String :=
  "\n".intercalate <|
    (f.subject.map fun subject => "invalid " ++ subject).toList ++
    (if f.expected.isEmpty then [] else ["expected " ++ ", ".intercalate f.expected]) ++
    (f.cause.map Cause.text).toList

/-- What is left to read and the number of bytes in front of it. -/
structure Cursor where
  rest : List Char
  offset : Nat
deriving Inhabited

inductive Outcome (α : Type) where
  | done (value : α) (next : Cursor)
  /-- Something else may be tried. -/
  | retreat (fault : Fault)
  /-- Nothing else may be tried. -/
  | stop (fault : Fault)
deriving Inhabited

def Reader (α : Type) := Cursor → Outcome α

namespace Reader

variable {α β : Type}

instance : Monad Reader where
  pure a := fun c => .done a c
  bind r f := fun c =>
    match r c with
    | .done a next => f a next
    | .retreat fault => .retreat fault
    | .stop fault => .stop fault

def fail : Reader α := fun c =>
  .retreat ⟨c.offset, none, [], none⟩

def failWith (cause : Cause) : Reader α := fun c =>
  .retreat ⟨c.offset, none, [], some cause⟩

def next? : Reader (Option Char) := fun c =>
  .done c.rest.head? c

def satisfy (p : Char → Bool) : Reader Char := fun c =>
  match c.rest with
  | x :: rest => if p x then .done x ⟨rest, c.offset + x.utf8Size⟩ else fail c
  | [] => fail c

def char (x : Char) : Reader Char :=
  satisfy (· == x)

/-- Reads given characters; a failure is met in front of the first one. -/
def literal (xs : List Char) : Reader Unit := fun c =>
  if xs.isPrefixOf c.rest then
    .done () ⟨c.rest.drop xs.length, c.offset + (String.ofList xs).utf8ByteSize⟩
  else fail c

def takeWhile (p : Char → Bool) : Reader (List Char) := fun c =>
  let xs := c.rest.takeWhile p
  .done xs ⟨c.rest.dropWhile p, c.offset + (String.ofList xs).utf8ByteSize⟩

def exactly (n : Nat) (p : Char → Bool) : Reader (List Char) := fun c =>
  let xs := c.rest.take n
  if xs.length == n && xs.all p then
    .done xs ⟨c.rest.drop n, c.offset + (String.ofList xs).utf8ByteSize⟩
  else fail c

/-- Tries a reader, then another one at the same place. -/
def orElse (r s : Reader α) : Reader α := fun c =>
  match r c with
  | .retreat _ => s c
  | outcome => outcome

def optional (r : Reader α) : Reader (Option α) := fun c =>
  match r c with
  | .done a next => .done (some a) next
  | .retreat _ => .done none c
  | .stop fault => .stop fault

/-- Commits to a reader. -/
def commit (r : Reader α) : Reader α := fun c =>
  match r c with
  | .retreat fault => .stop fault
  | outcome => outcome

def peek (r : Reader α) : Reader α := fun c =>
  match r c with
  | .done a _ => .done a c
  | outcome => outcome

def mapFault (f : Fault → Fault) (r : Reader α) : Reader α := fun c =>
  match r c with
  | .retreat fault => .retreat (f fault)
  | .stop fault => .stop (f fault)
  | outcome => outcome

/-- Names what a reader reads; the innermost name is kept. -/
def named (subject : String) (r : Reader α) : Reader α :=
  r.mapFault fun f => { f with subject := f.subject <|> some subject }

def expecting (what : String) (r : Reader α) : Reader α :=
  r.mapFault fun f => { f with expected := f.expected ++ [what] }

def expectingChar (x : Char) (r : Reader α) : Reader α :=
  r.expecting ("\x60" ++ x.toString ++ "\x60")

/-- Converts what was read; a failure is met in front of it. -/
def convert (r : Reader α) (f : α → Except (Option Cause) β) : Reader β := fun c =>
  match r c with
  | .done a next =>
    match f a with
    | .ok b => .done b next
    | .error cause => .retreat ⟨c.offset, none, [], cause⟩
  | .retreat fault => .retreat fault
  | .stop fault => .stop fault

/-- Converts what was read and commits to it; a failure to convert is met in front of it. -/
def convertRead (r : Reader α) (f : α → Except (Option Cause) β) : Reader β := fun c =>
  match r c with
  | .done a next =>
    match f a with
    | .ok b => .done b next
    | .error cause => .stop ⟨c.offset, none, [], cause⟩
  | .retreat fault => .retreat fault
  | .stop fault => .stop fault

/-- The characters that a reader reads. -/
def taken (r : Reader α) : Reader (List Char) := fun c =>
  match r c with
  | .done _ next => .done (c.rest.take (c.rest.length - next.rest.length)) next
  | .retreat fault => .retreat fault
  | .stop fault => .stop fault

def spanned (r : Reader α) : Reader (Span × α) := fun c =>
  match r c with
  | .done a next => .done (⟨c.offset, next.offset⟩, a) next
  | .retreat fault => .retreat fault
  | .stop fault => .stop fault

def manyWithin (r : Reader α) : Nat → Reader (List α)
  | 0 => pure []
  | n + 1 => fun c =>
    match r c with
    | .done a next =>
      match manyWithin r n next with
      | .done as next => .done (a :: as) next
      | .retreat fault => .retreat fault
      | .stop fault => .stop fault
    | .retreat _ => .done [] c
    | .stop fault => .stop fault

/-- Repeats a reader that reads something each time until it fails. -/
def many (r : Reader α) : Reader (List α) := fun c =>
  manyWithin r (c.rest.length + 1) c

/-- Repeats a reader that has to succeed once. -/
def several (r : Reader α) : Reader (List α) := do
  let a ← r
  return a :: (← many r)

def separated (item : Reader α) (separator : Reader β) : Reader (List α) := do
  let a ← item
  return a :: (← many (do let _ ← separator; item))

end Reader

end QueryBuild.Toml

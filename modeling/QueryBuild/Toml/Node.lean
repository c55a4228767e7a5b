/-!
# TOML values

The values of a document together with the stretches of text that they come from.
-/

namespace QueryBuild.Toml

/-- The bytes of a text from one offset up to another one. -/
structure Span where
  start : Nat
  stop : Nat
deriving DecidableEq, Inhabited

structure Key where
  name : String
  span : Span
deriving DecidableEq, Inhabited

/-- How a table came to be. -/
inductive TableKind where
  /-- By its own header. -/
  | headed
  /-- By the header of a table below it. -/
  | implied
  /-- By a dotted key. -/
  | dotted
  | inline
  /-- By a dotted key inside braces. -/
  | inlineDotted
deriving DecidableEq, Inhabited

namespace TableKind

/-- Whether more keys may be put below a table from elsewhere. -/
def isImplicit : TableKind → Bool
  | implied | dotted | inlineDotted => true
  | headed | inline => false

def isDotted : TableKind → Bool
  | dotted | inlineDotted => true
  | headed | implied | inline => false

def isInline : TableKind → Bool
  | inline | inlineDotted => true
  | headed | implied | dotted => false

end TableKind

/-- A table with entries of some kind, in the order in which they were added. -/
structure Table (α : Type) where
  kind : TableKind
  span : Option Span
  entries : List (Key × α)
deriving Inhabited

namespace Table

variable {α : Type}

def empty (kind : TableKind) : Table α :=
  ⟨kind, none, []⟩

def find? (t : Table α) (name : String) : Option α :=
  (t.entries.find? fun entry => entry.1.name == name).map Prod.snd

def push (t : Table α) (key : Key) (value : α) : Table α :=
  { t with entries := t.entries ++ [(key, value)] }

def replace (t : Table α) (name : String) (value : α) : Table α :=
  { t with
    entries := t.entries.map fun entry => if entry.1.name == name then (entry.1, value) else entry }

def erase (t : Table α) (name : String) : Table α :=
  { t with entries := t.entries.filter fun entry => entry.1.name != name }

end Table

inductive Node where
  | string (span : Span) (value : String)
  | integer (span : Span) (value : Int)
  | float (span : Span) (value : Float)
  | boolean (span : Span) (value : Bool)
  | moment (span : Span)
  | array (span : Span) (items : List Node)
  | table (content : Table Node)
  /-- The tables of one repeated header. -/
  | tables (content : List (Table Node))

instance : Inhabited Node := ⟨.moment ⟨0, 0⟩⟩

namespace Node

/-- Where a value stands, as far as it stands in one place. -/
def span? : Node → Option Span
  | string span _ | integer span _ | float span _ | boolean span _ | moment span
  | array span _ => some span
  | table content => content.span
  | tables content =>
    match content.head?.bind Table.span, content.getLast?.bind Table.span with
    | some first, some last => some ⟨first.start, last.stop⟩
    | _, _ => none

def kindName : Node → String
  | string _ _ => "string"
  | integer _ _ => "integer"
  | float _ _ => "float"
  | boolean _ _ => "boolean"
  | moment _ => "datetime"
  | array _ _ => "array"
  | table content => if content.kind.isInline then "inline table" else "table"
  | tables _ => "array of tables"

end Node

/-- Why a key cannot be put where it stands. -/
inductive Clash where
  /-- The key is there already, in a table that may be known by its path. -/
  | duplicate (key : String) (table : Option (List String))
  /-- A dotted key leads through something that is no table. -/
  | notTable (path : List String) (kind : String)
deriving DecidableEq, Inhabited

def Clash.text : Clash → String
  | duplicate key none => "duplicate key \x60" ++ key ++ "\x60"
  | duplicate key (some []) => "duplicate key \x60" ++ key ++ "\x60 in document root"
  | duplicate key (some path) =>
    "duplicate key \x60" ++ key ++ "\x60 in table \x60" ++ ".".intercalate path ++ "\x60"
  | notTable path kind =>
    "dotted key \x60" ++ ".".intercalate path ++ "\x60 attempted to extend non-table type (" ++
      kind ++ ")"

/-- A place where keys are resolved: in the document or between braces. -/
inductive Scope where
  | document
  | braces
deriving DecidableEq, Inhabited

/-- The kind of a table that a path makes on its way. -/
def Scope.newKind (scope : Scope) (dotted : Bool) : TableKind :=
  match scope, dotted with
  | .document, true => .dotted
  | .document, false => .implied
  | .braces, _ => .inlineDotted

/-- Changes the table at the end of a path, making the tables that are not there yet. A dotted key
may not lead through a table that has its own header. -/
def Table.below (scope : Scope) (dotted : Bool) (passed : List String) (path : List Key)
    (t : Table Node) (change : Table Node → Except Clash (Table Node)) :
    Except Clash (Table Node) :=
  match path with
  | [] => change t
  | key :: path =>
    let passed := passed ++ [key.name]
    match t.find? key.name with
    | none => do
      let child ← below scope dotted passed path (.empty (scope.newKind dotted)) change
      return t.push key (.table child)
    | some (.table child) =>
      if child.kind.isInline && scope == .document then
        .error (.notTable passed "inline table")
      else if dotted && !child.kind.isImplicit then .error (.duplicate key.name none)
      else do
        let child ← below scope dotted passed path child change
        return t.replace key.name (.table child)
    | some (.tables content) =>
      match content.getLast? with
      | none => .error (.duplicate key.name none)
      | some last => do
        let last ← below scope dotted passed path last change
        return t.replace key.name (.tables (content.dropLast ++ [last]))
    | some other => .error (.notTable passed other.kindName)

def Table.assign (scope : Scope) (path : List Key) (key : Key) (value : Node)
    (owner : Option (List String)) (t : Table Node) : Except Clash (Table Node) :=
  t.below scope true [] path fun t =>
    if t.kind.isDotted == path.isEmpty then .error (.duplicate key.name none)
    else if (t.find? key.name).isSome then .error (.duplicate key.name owner)
    else .ok (t.push key value)

end QueryBuild.Toml

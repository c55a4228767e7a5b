import QueryBuild.Decimal.Shortest
import QueryBuild.Mismatch
import QueryBuild.Toml.Problem
/-!
# Decoding TOML values

A decoder turns a value of a document into what it stands for. A problem without a place of its own
is given the place of the value, and if that has none, the place of its key.
-/

namespace QueryBuild.Toml

/-- Turns a value into what it stands for. -/
abbrev Decoder (α : Type) := Node → Except Problem α

/-- What is said of a value that stands in the wrong place. -/
def Node.found : Node → Found
  | .string _ s => .str s
  | .integer _ n => .integer n
  | .float _ x => .float (floatText Decimal.positional x)
  | .boolean _ b => .bool b
  | .moment _ => .map
  | .array _ _ => .sequence
  | .table _ => .map
  | .tables _ => .sequence

def Node.problem (node : Node) (message : String) : Problem :=
  ⟨message, node.span?⟩

/-- Gives a problem without a place a place. -/
def placed {α : Type} (span : Option Span) (result : Except Problem α) : Except Problem α :=
  result.mapError fun p => { p with span := p.span <|> span }

namespace Decoder

variable {α σ : Type}

def refuse (expected : String) : Decoder α := fun node =>
  .error (node.problem (Mismatch.kind node.found expected).text)

def text (expected : String) : Decoder String := fun node =>
  match node with
  | .string _ s => .ok s
  | _ => refuse expected node

def list (item : Decoder α) : Decoder (List α) := fun node =>
  match node with
  | .array span items => placed (some span) (items.mapM item)
  | .tables content => placed node.span? ((content.map Node.table).mapM item)
  | _ => refuse "a sequence" node

def nothing : Decoder Unit := fun node =>
  match node with
  | .tables content => if content.isEmpty then .ok () else .error (node.problem "expected empty array")
  | .array _ items => if items.isEmpty then .ok () else .error (node.problem "expected empty table")
  | .table content =>
    if content.entries.isEmpty then .ok () else .error (node.problem "expected empty table")
  | _ => .error (node.problem ("expected table, found " ++ node.kindName))

def name (known : List String) (s : String) : Except Problem String :=
  if known.contains s then .ok s else .error ⟨(Mismatch.choice s known).text, none⟩

/-- One of some names, by itself or as the only key of a table without content. -/
def choice (known : List String) : Decoder String := fun node =>
  match node with
  | .string span s => placed (some span) (name known s)
  | .table content =>
    match content.entries with
    | [] => .error (node.problem "wanted exactly 1 element, found 0 elements")
    | [(key, value)] => do
      let s ← placed (some key.span) (name known key.name)
      nothing value
      return s
    | _ => .error (node.problem "wanted exactly 1 element, more than 1 element")
  | _ => .error (node.problem "wanted string or table")

/-- A field of a record: its name and how its value changes the record. -/
structure Field (σ : Type) where
  name : String
  set : σ → Node → Except Problem σ

/-- Fills the fields of a record from the entries of a table; unknown entries are left out. -/
def ofEntries (fields : List (Field σ)) (start : σ) (entries : List (Key × Node)) :
    Except Problem σ :=
  entries.foldlM (fun filled (key, value) =>
    match fields.find? fun field => field.name == key.name with
    | some field => placed (value.span? <|> some key.span) (field.set filled value)
    | none => .ok filled) start

/-- Fills the fields of a record in their order; whatever is missing stays, and whatever is left
over is left out. -/
def ofItems (fields : List (Field σ)) (start : σ) (items : List Node) : Except Problem σ :=
  (fields.zip items).foldlM (fun filled (field, value) => field.set filled value) start

/-- A record, as a table or as the list of its fields. -/
def record (name : String) (fields : List (Field σ)) (start : σ) : Decoder σ := fun node =>
  match node with
  | .table content => placed content.span (ofEntries fields start content.entries)
  | .array span items => placed (some span) (ofItems fields start items)
  | .tables content => placed node.span? (ofItems fields start (content.map Node.table))
  | _ => refuse ("struct " ++ name) node

end Decoder

end QueryBuild.Toml

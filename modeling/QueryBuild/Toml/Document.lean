import QueryBuild.Toml.Value
/-!
# TOML documents

A document is read line by line into the table of its values. A header opens the table to which the
following lines belong; that table is put into its place when the next one is opened.
-/

namespace QueryBuild.Toml

/-- A document that is being read. -/
structure Draft where
  /-- The tables that are closed. -/
  root : Table Node
  /-- The table that is open. -/
  current : Table Node
  /-- Where the open table belongs. -/
  path : List Key
  /-- Whether the header of the open table may be repeated. -/
  repeated : Bool

namespace Draft

/-- The start of a document: the open table is the document itself. -/
def start : Draft :=
  ⟨.empty .headed, { Table.empty .headed with span := some ⟨0, 0⟩ }, [], false⟩

def names (path : List Key) : List String :=
  path.map Key.name

/-- The clash of a header with what is there. -/
def headerClash (path : List Key) (key : Key) : Clash :=
  .duplicate key.name (some (names path))

def close (d : Draft) : Except Clash (Table Node) :=
  match d.path.getLast? with
  | none => .ok d.current
  | some key =>
    let path := d.path.dropLast
    d.root.below .document false [] path fun parent =>
      match parent.find? key.name, d.repeated with
      | none, false => .ok (parent.push key (.table d.current))
      | none, true => .ok (parent.push key (.tables [d.current]))
      | some (.tables content), true =>
        .ok (parent.replace key.name (.tables (content ++ [d.current])))
      | some _, _ => .error (headerClash path key)

/-- Opens the table of a header. A table that was only implied so far keeps its entries. -/
def openTable (d : Draft) (header : List Key) (span : Span) : Except Clash Draft := do
  let root ← d.close
  let (path, key) := Reader.splitKey header
  let known := ((lookup root path).bind fun parent => parent.find? key.name)
  let taken ← (match known with
    | none => .ok []
    | some (.table content) =>
      if content.kind == .implied then .ok content.entries else .error (headerClash path key)
    | some _ => .error (headerClash path key))
  let root ← root.below .document false [] path fun parent => .ok (parent.erase key.name)
  return ⟨root, ⟨.headed, some span, taken⟩, header, false⟩
where
  lookup (t : Table Node) : List Key → Option (Table Node)
    | [] => some t
    | key :: path =>
      match t.find? key.name with
      | some (.table child) => lookup child path
      | some (.tables content) => content.getLast?.bind fun child => lookup child path
      | _ => none

/-- Opens one more table of a header that may be repeated. -/
def openRepeated (d : Draft) (header : List Key) (span : Span) : Except Clash Draft := do
  let root ← d.close
  let (path, key) := Reader.splitKey header
  let root ← root.below .document false [] path fun parent =>
    match parent.find? key.name with
    | none => .ok (parent.push key (.tables []))
    | some (.tables _) => .ok parent
    | some _ => .error (headerClash path key)
  return ⟨root, ⟨.headed, some span, []⟩, header, true⟩

/-- Adds a line with a key and a value to the open table, whose text reaches up to that value. -/
def add (d : Draft) (keys : List Key) (value : Node) : Except Clash Draft := do
  let (path, key) := Reader.splitKey keys
  let span := match d.current.span, value.span? with
    | some whole, some part => some ⟨whole.start, part.stop⟩
    | whole, _ => whole
  let current ← { d.current with span := span }.assign .document path key value (some (names d.path))
  return { d with current := current }

end Draft

namespace Reader

def lineEnd : Reader Unit :=
  orElse newline fun c => if c.rest.isEmpty then .done () c else fail c

def lineRest : Reader Unit := do
  blanks
  let _ ← optional comment
  lineEnd

/-- Reads the end of a line on which nothing else is wanted. -/
def finalRest : Reader Unit :=
  (lineRest.expecting "newline").expectingChar '#'

def clashing (result : Except Clash Draft) : Except (Option Cause) Draft :=
  result.mapError fun clash => some (.clash clash)

def pair (d : Draft) : Reader Draft :=
  convert
    (do
      let k ← key
      commit do
        equals
        blanks
        let v ← value depthLimit
        finalRest
        return (k, v))
    fun (k, v) => clashing (d.add k v)

def header (opening closing : String) (shown : String) : Reader (Span × List Key) := do
  let (span, k) ← spanned do
    literal opening.toList
    let k ← commit key
    commit (((literal closing.toList).expectingChar '.').expecting shown)
    return k
  commit finalRest
  return (span, k)

def headerLine (d : Draft) : Reader Draft :=
  named "table header" fun c =>
    match c.rest with
    | '[' :: '[' :: _ =>
      convert (header "[[" "]]" "\x60]]\x60")
        (fun (span, k) => clashing (d.openRepeated k span)) c
    | '[' :: _ :: _ =>
      convert (header "[" "]" "\x60]\x60") (fun (span, k) => clashing (d.openTable k span)) c
    | _ => fail c

def linesWithin (d : Draft) : Nat → Reader Draft
  | 0 => fail
  | n + 1 => do
    blanks
    match ← next? with
    | none => pure d
    | some '#' =>
      commit do
        comment
        lineEnd
      linesWithin d n
    | some '[' =>
      let d ← commit (headerLine d)
      linesWithin d n
    | some '\n' | some '\r' =>
      newline
      linesWithin d n
    | some _ =>
      let d ← commit (pair d)
      linesWithin d n

def document : Reader (Table Node) := fun c =>
  let body : Reader (Table Node) := do
    let _ ← optional (char '\uFEFF')
    let d ← linesWithin .start (c.rest.length + 1)
    convert (pure d) fun d => d.close.mapError fun clash => some (.clash clash)
  body c

end Reader

end QueryBuild.Toml

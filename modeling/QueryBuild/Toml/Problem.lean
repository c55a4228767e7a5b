import QueryBuild.Toml.Document
/-!
# Problems of documents

A problem is shown with the line that it concerns and with marks under the place.
-/

namespace QueryBuild.Toml

/-- What is wrong with a document and where. -/
structure Problem where
  message : String
  span : Option Span
deriving DecidableEq, Inhabited

/-- A character with its line, counted from zero, the number of characters and of bytes in front of
it on the line, and its offset. -/
structure Spot where
  char : Char
  line : Nat
  column : Nat
  bytes : Nat
  offset : Nat

def spots (line column bytes offset : Nat) : List Char → List Spot
  | [] => []
  | c :: cs =>
    ⟨c, line, column, bytes, offset⟩ ::
      if c == '\n' then spots (line + 1) 0 0 (offset + 1) cs
      else spots line (column + 1) (bytes + c.utf8Size) (offset + c.utf8Size) cs

/-- The line and the column of an offset, both counted from zero. A column counts characters; in
front of a character of several bytes it counts bytes, and the end of a text lies one column behind
its last byte. -/
def position (text : List Char) (offset : Nat) : Nat × Nat :=
  let size := (String.ofList text).utf8ByteSize
  let last := min offset (size - 1)
  match (spots 0 0 0 0 text).find? fun s => last < s.offset + s.char.utf8Size with
  | none => (0, offset)
  | some s =>
    let column :=
      if s.offset + s.char.utf8Size == last + 1 then s.column else s.bytes + (last - s.offset)
    (s.line, column + (offset - last))

/-- The character at an offset as a span; the end of a text is empty. -/
def spanAt (text : List Char) (offset : Nat) : Span :=
  match (spots 0 0 0 0 text).find? fun s => s.offset == offset with
  | some s => ⟨offset, offset + s.char.utf8Size⟩
  | none => ⟨offset, offset⟩

def linesOf (text : List Char) : List (List Char) :=
  match text with
  | [] => [[]]
  | c :: cs =>
    if c == '\n' then [] :: linesOf cs
    else
      match linesOf cs with
      | [] => [[c]]
      | line :: rest => (c :: line) :: rest

def spaces (n : Nat) : String :=
  String.ofList (List.replicate n ' ')

/-- The problem in words, with the line and its marks. -/
def Problem.text (p : Problem) (source : String) : String :=
  let shown := match p.span with
    | none => ""
    | some span =>
      let text := source.toList
      let (line, column) := position text span.start
      let number := toString (line + 1)
      let content := (linesOf text).getD line []
      let margin := spaces (number.length + 1) ++ "|"
      let stop := min span.stop (span.start + (String.ofList content).utf8ByteSize)
      "TOML parse error at line " ++ number ++ ", column " ++ toString (column + 1) ++ "\n" ++
        margin ++ "\n" ++
        number ++ " | " ++ String.ofList content ++ "\n" ++
        margin ++ spaces (column + 1) ++
        String.ofList (List.replicate (1 + (stop - (span.start + 1))) '^') ++ "\n"
  shown ++ p.message ++ "\n"

def parse (source : String) : Except Problem (Table Node) :=
  let text := source.toList
  match Reader.document ⟨text, 0⟩ with
  | .done t _ => .ok t
  | .retreat fault | .stop fault => .error ⟨fault.text, some (spanAt text fault.offset)⟩

end QueryBuild.Toml

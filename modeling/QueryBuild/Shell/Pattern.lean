/-!
# Patterns

Patterns of file names and texts: `*` matches any text, `?` any character, and brackets a set of
characters. A quoted character stands for itself.
-/

namespace QueryBuild.Shell

/-- A character of a field and whether it was quoted. -/
abbrev Marked := Char × Bool

inductive Mark where
  | many
  | one
  /-- A character in one of some ranges, or in none of them. -/
  | among (negated : Bool) (ranges : List (Char × Char))
  | exactly (c : Char)
deriving DecidableEq, Inhabited

namespace Pattern

def classes : List (String × List (Char × Char)) := [
  ("alpha", [('a', 'z'), ('A', 'Z')]),
  ("digit", [('0', '9')]),
  ("alnum", [('a', 'z'), ('A', 'Z'), ('0', '9')]),
  ("upper", [('A', 'Z')]),
  ("lower", [('a', 'z')]),
  ("space", [(' ', ' '), ('\t', '\r')]),
  ("blank", [(' ', ' '), ('\t', '\t')]),
  ("punct", [('!', '/'), (':', '@'), ('[', '\x60'), ('\x7b', '~')]),
  ("xdigit", [('0', '9'), ('a', 'f'), ('A', 'F')])]

/-- Whether a character is an unquoted one. -/
def is (c : Char) (m : Marked) : Bool :=
  m.1 == c && !m.2

def className (cs : List Marked) : Option (List (Char × Char) × List Marked) :=
  match cs with
  | (':', _) :: rest =>
    let name := rest.takeWhile fun m => m.1.isAlpha
    match rest.drop name.length with
    | (':', _) :: (']', _) :: after =>
      (classes.lookup (String.ofList (name.map Prod.fst))).map fun ranges => (ranges, after)
    | _ => none
  | _ => none

/-- The ranges up to a closing bracket, and what follows it. A bracket that comes first is a
character. -/
def ranges (first : Bool) : Nat → List Marked → Option (List (Char × Char) × List Marked)
  | 0, _ => none
  | _, [] => none
  | fuel + 1, m :: rest =>
    if is ']' m && !first then some ([], rest)
    else
      match if is '[' m then className rest else none with
      | some (found, after) =>
        (ranges false fuel after).map fun (more, rest) => (found ++ more, rest)
      | none =>
        match rest with
        | ('-', false) :: last :: after =>
          if is ']' last then
            (ranges false fuel rest).map fun (more, rest) => ((m.1, m.1) :: more, rest)
          else (ranges false fuel after).map fun (more, rest) => ((m.1, last.1) :: more, rest)
        | _ => (ranges false fuel rest).map fun (more, rest) => ((m.1, m.1) :: more, rest)

/-- The parts of a pattern. A bracket that is never closed is a character. -/
def marks : Nat → List Marked → List Mark
  | 0, _ => []
  | _, [] => []
  | fuel + 1, m :: rest =>
    if m.2 then .exactly m.1 :: marks fuel rest
    else
      match m.1 with
      | '*' => .many :: marks fuel rest
      | '?' => .one :: marks fuel rest
      | '[' =>
        let (negated, inner) := match rest with
          | ('!', false) :: inner => (true, inner)
          | ('^', false) :: inner => (true, inner)
          | inner => (false, inner)
        match ranges true (inner.length + 1) inner with
        | some (found, after) => .among negated found :: marks fuel after
        | none => .exactly '[' :: marks fuel rest
      | c => .exactly c :: marks fuel rest

def ofField (field : List Marked) : List Mark :=
  marks (field.length + 1) field

def accepts (mark : Mark) (c : Char) : Bool :=
  match mark with
  | .many | .one => true
  | .among negated ranges => (ranges.any fun (low, high) => low ≤ c && c ≤ high) != negated
  | .exactly d => c == d

def fits : List Mark → List Char → Bool
  | [], text => text.isEmpty
  | .many :: marks, [] => fits marks []
  | .many :: marks, c :: text => fits marks (c :: text) || fits (.many :: marks) text
  | _ :: _, [] => false
  | mark :: marks, c :: text => accepts mark c && fits marks text
termination_by marks text => marks.length + text.length

/-- Whether a pattern can match more than one text. -/
def isOpen (marks : List Mark) : Bool :=
  marks.any fun mark =>
    match mark with
    | .exactly _ => false
    | _ => true

/-- The text without a match at its front; the shortest or the longest one. -/
def cutFront (longest : Bool) (marks : List Mark) (text : List Char) : List Char :=
  let lengths := List.range (text.length + 1)
  let tried := if longest then lengths.reverse else lengths
  match tried.find? fun n => fits marks (text.take n) with
  | some n => text.drop n
  | none => text

def cutBack (longest : Bool) (marks : List Mark) (text : List Char) : List Char :=
  let lengths := List.range (text.length + 1)
  let tried := if longest then lengths else lengths.reverse
  match tried.find? fun n => fits marks (text.drop n) with
  | some n => text.take n
  | none => text

end Pattern

end QueryBuild.Shell

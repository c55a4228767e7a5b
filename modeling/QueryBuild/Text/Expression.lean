/-!
# Regular expressions

The expressions with which lines are searched. A match starts as far left as it can and is as long
as it can be there.
-/

namespace QueryBuild.Text

inductive Expression where
  | empty
  | lineStart
  | lineEnd
  /-- A character in some ranges, or in none of them. -/
  | among (negated : Bool) (ranges : List (Char × Char))
  | join (first second : Expression)
  | either (first second : Expression)
  /-- An expression any number of times, but at least so often. -/
  | repeated (least : Nat) (inner : Expression)
  | optional (inner : Expression)
deriving Inhabited

namespace Expression

def only (c : Char) : Expression :=
  among false [(c, c)]

def any : Expression :=
  among true []

/-- The ranges in brackets and what follows them; a closing bracket that comes first is a
character. -/
def ranges (first : Bool) : List Char → Option (List (Char × Char) × List Char)
  | [] => none
  | ']' :: rest =>
    if first then (ranges false rest).map fun (more, rest) => ((']', ']') :: more, rest)
    else some ([], rest)
  | a :: '-' :: b :: rest =>
    if b == ']' then some ([(a, a), ('-', '-')], rest)
    else (ranges false rest).map fun (more, rest) => ((a, b) :: more, rest)
  | c :: rest => (ranges false rest).map fun (more, rest) => ((c, c) :: more, rest)

/-- A mark of repetition at the front of a text, and what follows it. -/
def repetition (extended : Bool) (e : Expression) (rest : List Char) :
    Option (Expression × List Char) :=
  match extended, rest with
  | _, '*' :: rest => some (repeated 0 e, rest)
  | true, '+' :: rest => some (repeated 1 e, rest)
  | true, '?' :: rest => some (optional e, rest)
  | false, '\\' :: '+' :: rest => some (repeated 1 e, rest)
  | false, '\\' :: '?' :: rest => some (optional e, rest)
  | _, _ => none

mutual

def alternatives (extended : Bool) : Nat → List Char → Expression × List Char
  | 0, text => (empty, text)
  | fuel + 1, text =>
    let (first, rest) := branch extended fuel true text
    let more? := match extended, rest with
      | true, '|' :: rest => some rest
      | false, '\\' :: '|' :: rest => some rest
      | _, _ => none
    match more? with
    | none => (first, rest)
    | some rest =>
      let (second, rest) := alternatives extended fuel rest
      (either first second, rest)

/-- Reads what follows each other; `start` says whether nothing came before. -/
def branch (extended : Bool) : Nat → Bool → List Char → Expression × List Char
  | 0, _, text => (empty, text)
  | fuel + 1, start, text =>
    match atom extended fuel start text with
    | none => (empty, text)
    | some (e, rest) =>
      let (e, rest) := match repetition extended e rest with
        | some found => found
        | none => (e, rest)
      let (more, rest) := branch extended fuel false rest
      (join e more, rest)

def atom (extended : Bool) : Nat → Bool → List Char → Option (Expression × List Char)
  | 0, _, _ => none
  | fuel + 1, start, text =>
    let group (rest : List Char) : Option (Expression × List Char) :=
      let (inner, rest) := alternatives extended fuel rest
      match extended, rest with
      | true, ')' :: rest => some (inner, rest)
      | false, '\\' :: ')' :: rest => some (inner, rest)
      | _, rest => some (inner, rest)
    match extended, text with
    | _, [] => none
    | true, '|' :: _ => none
    | true, ')' :: _ => none
    | true, '(' :: rest => group rest
    | false, '\\' :: '(' :: rest => group rest
    | false, '\\' :: ')' :: _ => none
    | false, '\\' :: '|' :: _ => none
    | _, '\\' :: c :: rest => some (only c, rest)
    | _, '.' :: rest => some (any, rest)
    | _, '[' :: '^' :: rest => (ranges true rest).map fun (found, rest) => (among true found, rest)
    | _, '[' :: rest => (ranges true rest).map fun (found, rest) => (among false found, rest)
    | true, '^' :: rest => some (lineStart, rest)
    | false, '^' :: rest => some (if start then lineStart else only '^', rest)
    | true, '$' :: rest => some (lineEnd, rest)
    | false, ['$'] => some (lineEnd, [])
    | _, c :: rest => some (only c, rest)

end

def ofText (extended : Bool) (text : List Char) : Expression :=
  (alternatives extended (4 * text.length + 4) text).1

def literal (text : List Char) : Expression :=
  text.foldr (fun c e => join (only c) e) empty

/-- Goes on with an inner match as long as that takes characters away. -/
def repeats (inner : List Char → List (List Char)) : Nat → Nat → List Char → List (List Char)
  | 0, least, text => if least == 0 then [text] else []
  | fuel + 1, least, text =>
    let more := (inner text).flatMap fun rest =>
      if rest.length < text.length then repeats inner fuel (least - 1) rest
      else if least ≤ 1 then [rest] else []
    if least == 0 then text :: more else more

/-- What can follow a match at the front of a text; `start` says whether the line starts there. -/
def rests (lineLength : Nat) : Expression → List Char → List (List Char)
  | empty, text => [text]
  | lineStart, text => if text.length == lineLength then [text] else []
  | lineEnd, text => if text.isEmpty then [text] else []
  | among negated ranges, text =>
    match text with
    | [] => []
    | c :: rest =>
      if (ranges.any fun (low, high) => low ≤ c && c ≤ high) != negated then [rest] else []
  | join first second, text => (rests lineLength first text).flatMap (rests lineLength second)
  | either first second, text => rests lineLength first text ++ rests lineLength second text
  | repeated least inner, text => repeats (rests lineLength inner) text.length least text
  | optional inner, text => rests lineLength inner text ++ [text]

/-- The first match in a line: what comes before it, the match, and what follows it. -/
def search (e : Expression) (lineLength : Nat) : List Char →
    Option (List Char × List Char × List Char)
  | [] =>
    if (rests lineLength e []).isEmpty then none else some ([], [], [])
  | c :: text =>
    match (rests lineLength e (c :: text)).map List.length |>.min? with
    | some n =>
      let taken := text.length + 1 - n
      some ([], (c :: text).take taken, (c :: text).drop taken)
    | none => (search e lineLength text).map fun (before, found, after) => (c :: before, found, after)

def matchesIn (e : Expression) (line : List Char) : Bool :=
  (e.search line.length line).isSome

end Expression

end QueryBuild.Text

import QueryBuild.Names
/-!
# References between units

A unit reads the output of another by naming a CSV file in its text. The names are found by a scan
of the raw text, comments and strings included.
-/

namespace QueryBuild.Reference

/-- Both kinds of quote delimit a file name. -/
def isQuote (c : Char) : Bool :=
  c == '"' || c == '\''

/-- The stem of a quoted CSV file name, which is not empty. -/
def stem? (quoted : List Char) : Option (List Char) :=
  match quoted.reverse with
  | 'v' :: 's' :: 'c' :: '.' :: c :: before => some (c :: before).reverse
  | _ => none

/-- What follows the last slash or backslash. -/
def baseName (path : List Char) : List Char :=
  (path.reverse.takeWhile fun c => c != '/' && c != '\\').reverse

/-- The stems of the quoted CSV file names in a text, from left to right. A quote that closes a
match does not open another one. -/
def stems : List Char → List (List Char)
  | [] => []
  | c :: rest =>
    if isQuote c then
      match h : rest.dropWhile fun c => !isQuote c with
      | [] => []
      | quote :: after =>
        match stem? (rest.takeWhile fun c => !isQuote c) with
        | some stem => stem :: stems after
        -- The quote behind what is no file name may be the one in front of the next.
        | none => stems (quote :: after)
    else stems rest
termination_by text => text.length
decreasing_by
  · have := (List.dropWhile_suffix (l := rest) fun c => !isQuote c).length_le
    simp only [h, List.length_cons] at this ⊢
    omega
  · have := (List.dropWhile_suffix (l := rest) fun c => !isQuote c).length_le
    simp only [h, List.length_cons] at this ⊢
    omega
  · simp

/-- The names of the units that a text refers to, in increasing order. -/
def names (sql : String) : List String :=
  Names.ofList <|
    (stems sql.toList).filterMap fun stem =>
      let base := baseName stem
      if base == [] then none else some (String.ofList base)

end QueryBuild.Reference

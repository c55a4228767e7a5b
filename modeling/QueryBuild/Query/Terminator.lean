import QueryBuild.Query.Lexer
/-!
# Removing what ends a statement

Trailing semicolons, white space and comments are cut off, so that a query can stand inside
parentheses. The cut is made by tokens: a semicolon inside a string stays, and one in front of a
comment goes.
-/

namespace QueryBuild.Query

def lineEnds : List (List Char) :=
  -- The longest one comes first, since it ends in another.
  [['\r', '\n'], ['\n'], ['\r']]

/-- Removes the text of a trailing token from a text that is given backwards. Answers `none` for a
token that belongs to the query, and `some none` if the text does not end as the token is shown. -/
def withoutLast (token : Token) (backwards : List Char) : Option (Option (List Char)) :=
  match token with
  | .symbol .semicolon => some (Text.stripFront? [';'] backwards)
  | .newline =>
    some (lineEnds.findSome? fun lineEnd => Text.stripFront? lineEnd.reverse backwards)
  | .space | .tab | .comment _ => some (Text.stripFront? token.text.toList.reverse backwards)
  | _ => none

/-- Removes trailing tokens, the last one first, as far as they end statements. The text is given
and answered backwards. Answers `none` if one of the tokens is not shown as it was written. -/
def dropTerminators : List Token → List Char → Option (List Char)
  | [], backwards => some backwards
  | token :: earlier, backwards =>
    match withoutLast token backwards with
    | none => some backwards
    | some none => none
    | some (some shorter) => dropTerminators earlier shorter

/-- Characters that are cut off a text that has no tokens. -/
def isTerminatorChar (c : Char) : Bool :=
  c == ';' || Text.isBlank c

abbrev Tokenizer := List Char → Except LexError (List Lexeme)

/-- A text without the semicolons, white space and comments at its end, as far as its tokens tell.
Where they do not tell, only semicolons and white space are cut off. -/
def stripTerminatorsWith (tokenize : Tokenizer) (text : List Char) : List Char :=
  let trimmed := Text.dropTail isTerminatorChar text
  match tokenize text with
  | .error _ => trimmed
  | .ok lexemes =>
    match dropTerminators (lexemes.reverse.map Lexeme.token) text.reverse with
    | none => trimmed
    | some backwards => backwards.reverse

/-- A text without the semicolons, white space and comments that are at its end in the dialect of
programs. -/
def stripTerminatorsFrom (text : List Char) : List Char :=
  stripTerminatorsWith (lexemesFrom .duckdb .first) text

/-- A text without the semicolons, white space and comments at its end. -/
def stripTerminators (sql : String) : String :=
  String.ofList (stripTerminatorsFrom sql.toList)

end QueryBuild.Query

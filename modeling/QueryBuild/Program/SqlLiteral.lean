/-!
# Text as an SQL string literal

A quote inside the text is written twice.
-/

namespace QueryBuild.SqlLiteral

/-- The text with every quote doubled. -/
def double (text : List Char) : List Char :=
  text.flatMap fun c => if c == '\'' then ['\'', '\''] else [c]

def encodeChars (text : List Char) : List Char :=
  '\'' :: double text ++ ['\'']

/-- The literal of a text. -/
def encode (text : String) : String :=
  String.ofList (encodeChars text.toList)

end QueryBuild.SqlLiteral

/-!
# Upper case

Upper case as far as it concerns keywords, which are ASCII: besides the letters of ASCII, a few
other characters have ASCII letters as their upper case.
-/

namespace QueryBuild.Text

/-- The upper case of a character if it is ASCII, and the character itself otherwise. -/
def upperChar (c : Char) : List Char :=
  match c.toNat with
  | 0x131 => ['I']
  | 0x17F => ['S']
  | 0xDF => ['S', 'S']
  | 0xFB00 => ['F', 'F']
  | 0xFB01 => ['F', 'I']
  | 0xFB02 => ['F', 'L']
  | 0xFB03 => ['F', 'F', 'I']
  | 0xFB04 => ['F', 'F', 'L']
  | 0xFB05 => ['S', 'T']
  | 0xFB06 => ['S', 'T']
  | _ => [c.toUpper]

def upper (s : String) : String :=
  String.ofList (s.toList.flatMap upperChar)

end QueryBuild.Text

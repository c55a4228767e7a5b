/-!
# JSON values and their text

The text form puts every entry on a line of its own, two spaces deeper than what holds it; an empty
list or object is written in two characters.
-/

namespace QueryBuild

/-- A JSON value; numbers are counters, so they are natural. -/
inductive Json where
  | null
  | bool (value : Bool)
  | num (value : Nat)
  | str (value : String)
  | arr (items : List Json)
  | obj (fields : List (String × Json))
deriving Inhabited

namespace Json

def hexDigit (n : Nat) : Char :=
  Char.ofNat (if n < 10 then 48 + n else 87 + n)

/-- A character as it stands inside a string. -/
def escape (c : Char) : List Char :=
  match c with
  | '"' => ['\\', '"']
  | '\\' => ['\\', '\\']
  | '\n' => ['\\', 'n']
  | '\r' => ['\\', 'r']
  | '\t' => ['\\', 't']
  | '\x08' => ['\\', 'b']
  | '\x0c' => ['\\', 'f']
  | c =>
    if c.toNat < 32 then ['\\', 'u', '0', '0', hexDigit (c.toNat / 16), hexDigit (c.toNat % 16)]
    else [c]

def quote (s : String) : String :=
  String.ofList ('"' :: s.toList.flatMap escape ++ ['"'])

/-- A line break and the indentation of a level. -/
def newline (level : Nat) : String :=
  String.ofList ('\n' :: List.replicate (2 * level) ' ')

mutual

/-- The text of a value whose first line stands at a level. -/
def render (level : Nat) : Json → String
  | null => "null"
  | bool true => "true"
  | bool false => "false"
  | num n => toString n
  | str s => quote s
  | arr [] => "[]"
  | arr (x :: xs) =>
    "[" ++ newline (level + 1) ++ render (level + 1) x ++ renderItems (level + 1) xs ++
      newline level ++ "]"
  | obj [] => "\x7b\x7d"
  | obj (f :: fs) =>
    "\x7b" ++ newline (level + 1) ++ renderField (level + 1) f ++ renderFields (level + 1) fs ++
      newline level ++ "\x7d"

/-- The items after the first one. -/
def renderItems (level : Nat) : List Json → String
  | [] => ""
  | x :: xs => "," ++ newline level ++ render level x ++ renderItems level xs

def renderField (level : Nat) : String × Json → String
  | (key, value) => quote key ++ ": " ++ render level value

def renderFields (level : Nat) : List (String × Json) → String
  | [] => ""
  | f :: fs => "," ++ newline level ++ renderField level f ++ renderFields level fs

end

def text (value : Json) : String :=
  render 0 value

def strings (items : List String) : Json :=
  arr (items.map str)

end Json

end QueryBuild

import QueryBuild.Text.Numeral
/-!
# The inside of SQL literals

Where a literal ends and what it stands for. Each reader takes the characters after the opening
delimiter and answers with the value and the number of characters up to the closing delimiter,
that delimiter included.
-/

namespace QueryBuild.Query.Literal

/-- What a character stands for after a backslash in a plain literal. -/
def unescape (c : Char) : Char :=
  match c with
  | '0' => '\x00'
  | 'a' => '\x07'
  | 'b' => '\x08'
  | 'f' => '\x0c'
  | 'n' => '\n'
  | 'r' => '\r'
  | 't' => '\t'
  | 'Z' => '\x1a'
  | c => c

def prepend (c : Char) (width : Nat) (rest : Option (List Char × Nat)) :
    Option (List Char × Nat) :=
  rest.map fun (value, count) => (c :: value, count + width)

/-- A literal in which a doubled quote stands for a quote. -/
def quoted (quote : Char) (backslash : Bool) : List Char → Option (List Char × Nat)
  | [] => none
  | [c] => if c == quote then some ([], 1) else none
  | c :: d :: rest =>
    if c == quote then
      if d == quote then prepend quote 2 (quoted quote backslash rest) else some ([], 1)
    else if backslash && c == '\\' then prepend (unescape d) 2 (quoted quote backslash rest)
    else prepend c 1 (quoted quote backslash (d :: rest))

def tripleQuoted (quote : Char) : List Char → Option (List Char × Nat)
  | [] => none
  | c :: rest =>
    if c == quote && rest.take 2 == [quote, quote] then some ([], 3)
    else prepend c 1 (tripleQuoted quote rest)

def hexValue? (c : Char) : Option Nat :=
  if c.isDigit then some (c.toNat - 48)
  else if 'a' ≤ c ∧ c ≤ 'f' then some (c.toNat - 87)
  else if 'A' ≤ c ∧ c ≤ 'F' then some (c.toNat - 55)
  else none

def hexNumber? (digits : List Char) : Option Nat :=
  digits.foldl (fun total c => do some ((← total) * 16 + (← hexValue? c))) (some 0)

def charOfCode? (n : Nat) : Option Char :=
  if n.isValidChar then some (Char.ofNat n) else none

def isOctal (c : Char) : Bool :=
  '0' ≤ c && c ≤ '7'

/-- The ASCII character with the lowest eight bits of a number. -/
def asciiOfByte? (n : Nat) : Option Char :=
  if n % 256 < 128 then some (Char.ofNat (n % 256)) else none

/-- The code point of an escape with a fixed number of digits; a plus sign may lead them. -/
def codePoint? (width : Nat) (cs : List Char) : Option Char :=
  let digits := cs.take width
  if digits.length < width then none
  else
    let digits := if digits.head? == some '+' then digits.drop 1 else digits
    if digits.isEmpty then none else (hexNumber? digits).bind charOfCode?

/-- What an escape in a C-like literal stands for and how many characters after the backslash it
takes. -/
def cEscape? : List Char → Option (Char × Nat)
  | [] => none
  | 'b' :: _ => some ('\x08', 1)
  | 'f' :: _ => some ('\x0c', 1)
  | 'n' :: _ => some ('\n', 1)
  | 'r' :: _ => some ('\r', 1)
  | 't' :: _ => some ('\t', 1)
  | 'u' :: rest => (codePoint? 4 rest).map (·, 5)
  | 'U' :: rest => (codePoint? 8 rest).map (·, 9)
  | 'x' :: rest =>
    let digits := (rest.take 2).takeWhile fun c => (hexValue? c).isSome
    if digits.isEmpty then some ('x', 1)
    else ((hexNumber? digits).bind asciiOfByte?).map (·, digits.length + 1)
  | c :: rest =>
    if isOctal c then
      let digits := c :: (rest.take 2).takeWhile isOctal
      (asciiOfByte? (digits.foldl (fun total d => total * 8 + (d.toNat - 48)) 0)).map
        (·, digits.length)
    else some (c, 1)

/-- A literal with C-like escapes; none of them may stand for NUL. -/
def cQuoted (cs : List Char) : Option (List Char × Nat) :=
  match cs with
  | [] => none
  | '\'' :: '\'' :: rest => prepend '\'' 2 (cQuoted rest)
  | '\'' :: _ => some ([], 1)
  | '\\' :: rest =>
    match cEscape? rest with
    | none => none
    | some (c, width) =>
      if c == '\x00' then none else prepend c (width + 1) (cQuoted (rest.drop width))
  | c :: rest => prepend c 1 (cQuoted rest)
termination_by cs.length
decreasing_by all_goals simp_wf; try omega

/-- Why a literal with Unicode escapes cannot be read, and how many characters were read when
that was noticed. -/
structure Defect where
  message : String
  offset : Nat
deriving DecidableEq

def unicodeDigits (cs : List Char) (width offset total : Nat) : Except Defect Char :=
  match width with
  | 0 =>
    match charOfCode? total with
    | some c => .ok c
    | none =>
      .error ⟨"Invalid unicode character: " ++ String.ofList (Nat.toDigits 16 total), offset⟩
  | width + 1 =>
    match cs with
    | [] => .error ⟨"Unexpected EOF while parsing hex digit in escaped unicode string.", offset⟩
    | c :: rest =>
      match hexValue? c with
      | some digit => unicodeDigits rest width (offset + 1) (total * 16 + digit)
      | none =>
        .error ⟨"Invalid hex digit in escaped unicode string: " ++ String.singleton c, offset + 1⟩

/-- A literal with escapes of four digits after a backslash, or of six after a backslash and a
plus sign. -/
def unicodeQuoted (cs : List Char) (offset : Nat) : Except Defect (List Char × Nat) :=
  match cs with
  | [] => .error ⟨"Unterminated unicode encoded string literal", offset⟩
  | '\'' :: '\'' :: rest => do
    let (value, stop) ← unicodeQuoted rest (offset + 2)
    return ('\'' :: value, stop)
  | '\'' :: _ => .ok ([], offset + 1)
  | '\\' :: '\\' :: rest => do
    let (value, stop) ← unicodeQuoted rest (offset + 2)
    return ('\\' :: value, stop)
  | '\\' :: '+' :: rest => do
    let c ← unicodeDigits rest 6 (offset + 2) 0
    let (value, stop) ← unicodeQuoted (rest.drop 6) (offset + 8)
    return (c :: value, stop)
  | '\\' :: rest => do
    let c ← unicodeDigits rest 4 (offset + 1) 0
    let (value, stop) ← unicodeQuoted (rest.drop 4) (offset + 5)
    return (c :: value, stop)
  | c :: rest => do
    let (value, stop) ← unicodeQuoted rest (offset + 1)
    return (c :: value, stop)
termination_by cs.length
decreasing_by all_goals simp_wf; try omega

/-- The number of characters up to the end of a literal between double dollar signs. -/
def dollarQuoted : List Char → Option Nat
  | [] => none
  | '$' :: '$' :: _ => some 2
  | _ :: rest => (dollarQuoted rest).map (· + 1)

/-- The number of characters up to the end of a literal between tagged dollar signs. `left` is
what is missing of the closing tag once a dollar sign was read. A character that breaks the tag
belongs to the text, even if it is a dollar sign. -/
def tagQuoted (tag : List Char) (left : Option (List Char)) : List Char → Option Nat
  | [] => none
  | c :: rest =>
    match left with
    | none => (tagQuoted tag (if c == '$' then some tag else none) rest).map (· + 1)
    | some [] =>
      if c == '$' then some 1 else (tagQuoted tag none rest).map (· + 1)
    | some (t :: ts) =>
      (tagQuoted tag (if c == t then some ts else none) rest).map (· + 1)

/-- The number of characters up to the end of a block comment. Comments nest; a character may
take part in two delimiters. -/
def blockComment (previous : Char) (depth : Nat) : List Char → Option Nat
  | [] => none
  | c :: rest =>
    if previous == '/' && c == '*' then (blockComment c (depth + 1) rest).map (· + 1)
    else if previous == '*' && c == '/' then
      if depth ≤ 1 then some 1 else (blockComment c (depth - 1) rest).map (· + 1)
    else (blockComment c depth rest).map (· + 1)

end QueryBuild.Query.Literal

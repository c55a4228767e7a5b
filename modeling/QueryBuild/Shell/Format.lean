import QueryBuild.Text.Octets
/-!
# Formatted output

How `echo` and `printf` write their arguments: backslashes stand for characters that are hard to
type, and a format is used again until it has written every argument.
-/

namespace QueryBuild.Shell.Format

def isOctal (c : Char) : Bool :=
  '0' ≤ c && c ≤ '7'

def ofOctal (digits : List Char) : Char :=
  Char.ofNat (digits.foldl (fun n c => n * 8 + (c.toNat - '0'.toNat)) 0 % 256)

/-- The character that a backslash and what follows it stand for, and what follows that. A
backslash without a meaning stands for itself. -/
def escape (rest : List Char) : Char × List Char :=
  match rest with
  | 'a' :: rest => ('\x07', rest)
  | 'b' :: rest => ('\x08', rest)
  | 'f' :: rest => ('\x0c', rest)
  | 'n' :: rest => ('\n', rest)
  | 'r' :: rest => ('\r', rest)
  | 't' :: rest => ('\t', rest)
  | 'v' :: rest => ('\x0b', rest)
  | '\\' :: rest => ('\\', rest)
  | rest =>
    let digits := (rest.take 3).takeWhile isOctal
    if digits.isEmpty then ('\\', rest) else (ofOctal digits, rest.drop digits.length)

/-- The text of an argument with its escapes, and whether all output ends with it. -/
def unescape : Nat → List Char → List Char × Bool
  | 0, _ => ([], false)
  | _, [] => ([], false)
  | _, '\\' :: 'c' :: _ => ([], true)
  | fuel + 1, '\\' :: '0' :: rest =>
    let digits := (rest.take 3).takeWhile isOctal
    let (text, ends) := unescape fuel (rest.drop digits.length)
    (ofOctal digits :: text, ends)
  | fuel + 1, '\\' :: rest =>
    let (c, rest) := escape rest
    let (text, ends) := unescape fuel rest
    (c :: text, ends)
  | fuel + 1, c :: rest =>
    let (text, ends) := unescape fuel rest
    (c :: text, ends)

def echo (arguments : List Octets) : Octets :=
  let (words, lineEnd) := match arguments with
    | ['-', 'n'] :: words => (words, [])
    | words => (words, ['\n'])
  let all := List.intercalate [' '] words
  let (text, ends) := unescape (all.length + 1) all
  if ends then text else text ++ lineEnd

structure Directive where
  left : Bool
  zero : Bool
  plus : Bool
  space : Bool
  alternate : Bool
  width : Nat
  precision : Option Nat
deriving Inhabited

/-- What a format has written so far. -/
structure Progress where
  written : Octets
  arguments : List Octets
  complaints : List String
  used : Bool
  /-- Whether an argument ended the output. -/
  ended : Bool
  unusable : Bool
deriving Inhabited

def Progress.next (p : Progress) : Octets × Progress :=
  match p.arguments with
  | [] => ([], p)
  | a :: rest => (a, { p with arguments := rest, used := true })

/-- The number that an argument says, and what is wrong with it. -/
def numberOf (argument : Octets) : Int × Option String :=
  match argument with
  | [] => (0, none)
  | '"' :: c :: _ => (c.toNat, none)
  | '\'' :: c :: _ => (c.toNat, none)
  | _ =>
    let text := argument.dropWhile fun c => c == ' ' || c == '\t'
    let (negative, text) := match text with
      | '-' :: rest => (true, rest)
      | '+' :: rest => (false, rest)
      | rest => (false, rest)
    let (base, digits, rest) : Nat × List Char × List Char := match text with
      | '0' :: 'x' :: rest =>
        let (digits, rest) := rest.span fun c =>
          c.isDigit || ('a' ≤ c && c ≤ 'f') || ('A' ≤ c && c ≤ 'F')
        (16, digits, rest)
      | '0' :: rest =>
        let (digits, rest) := rest.span isOctal
        (8, '0' :: digits, rest)
      | rest =>
        let (digits, rest) := rest.span Char.isDigit
        (10, digits, rest)
    let value (c : Char) : Nat :=
      if c.isDigit then c.toNat - '0'.toNat
      else if 'a' ≤ c then c.toNat - 'a'.toNat + 10
      else c.toNat - 'A'.toNat + 10
    let n : Nat := digits.foldl (fun n c => n * base + value c) 0
    let shown := Octets.toText argument
    let complaint :=
      if digits.isEmpty then some (shown ++ ": expected numeric value")
      else if rest.isEmpty then none
      else some (shown ++ ": not completely converted")
    (if negative then -n else n, complaint)

def pad (d : Directive) (signs body : Octets) (zeros : Bool) : Octets :=
  let missing := d.width - (signs.length + body.length)
  if d.left then signs ++ body ++ List.replicate missing ' '
  else if zeros then signs ++ List.replicate missing '0' ++ body
  else List.replicate missing ' ' ++ signs ++ body

/-- The digits of a number with at least as many digits as a precision asks for. -/
def digits (d : Directive) (base : Nat) (upper : Bool) (n : Nat) : Octets :=
  let found := Nat.toDigits base n
  let found := if upper then found.map Char.toUpper else found
  let found := if d.precision == some 0 && n == 0 then [] else found
  List.replicate (d.precision.getD 1 - found.length) '0' ++ found

def convert (d : Directive) (kind : Char) (p : Progress) : Progress :=
  let (argument, p) := p.next
  let put (text : Octets) (p : Progress) : Progress := { p with written := p.written ++ text }
  let cut (text : Octets) : Octets :=
    match d.precision with
    | some n => text.take n
    | none => text
  match kind with
  | 's' => put (pad d [] (cut argument) false) p
  | 'c' => put (pad d [] (argument.take 1) false) p
  | 'b' =>
    let (text, ends) := unescape (argument.length + 1) argument
    put (pad d [] (cut text) false) { p with ended := ends }
  | _ =>
    let (n, complaint) := numberOf argument
    let p := { p with complaints := p.complaints ++ complaint.toList }
    let zeros := d.zero && d.precision.isNone
    let unsigned := (n.emod (Int.pow 2 64)).toNat
    match kind with
    | 'o' => put (pad d (if d.alternate then ['0'] else []) (digits d 8 false unsigned) zeros) p
    | 'u' => put (pad d [] (digits d 10 false unsigned) zeros) p
    | 'x' =>
      put (pad d (if d.alternate then ['0', 'x'] else []) (digits d 16 false unsigned) zeros) p
    | 'X' =>
      put (pad d (if d.alternate then ['0', 'X'] else []) (digits d 16 true unsigned) zeros) p
    | _ =>
      let signs := if n < 0 then ['-'] else if d.plus then ['+'] else if d.space then [' '] else []
      put (pad d signs (digits d 10 false n.natAbs) zeros) p

def flags (d : Directive) : List Char → Directive × List Char
  | '-' :: rest => flags { d with left := true } rest
  | '0' :: rest => flags { d with zero := true } rest
  | '+' :: rest => flags { d with plus := true } rest
  | ' ' :: rest => flags { d with space := true } rest
  | '#' :: rest => flags { d with alternate := true } rest
  | rest => (d, rest)

/-- A count in a directive: digits, or a star for the next argument. -/
def count (rest : List Char) (p : Progress) : Nat × List Char × Progress :=
  match rest with
  | '*' :: rest =>
    let (argument, p) := p.next
    ((numberOf argument).1.toNat, rest, p)
  | _ =>
    let (found, rest) := rest.span Char.isDigit
    (Nat.ofDigitChars 10 found 0, rest, p)

/-- Writes by a format once. -/
def pass : Nat → List Char → Progress → Progress
  | 0, _, p => p
  | _, [], p => p
  | fuel + 1, c :: rest, p =>
    let put (c : Char) : Progress := { p with written := p.written ++ [c] }
    if p.ended then p
    else if c == '\\' then
      let (c, rest) := escape rest
      pass fuel rest (put c)
    else if c != '%' then pass fuel rest (put c)
    else
      match rest with
      | '%' :: rest => pass fuel rest (put '%')
      | _ =>
        let (d, rest) := flags ⟨false, false, false, false, false, 0, none⟩ rest
        let (width, rest, p) := count rest p
        let (precision, rest, p) : Option Nat × List Char × Progress := match rest with
          | '.' :: rest =>
            let (n, rest, p) := count rest p
            (some n, rest, p)
          | _ => (none, rest, p)
        let d := { d with width := width, precision := precision }
        match rest with
        | kind :: rest =>
          if ['s', 'c', 'b', 'd', 'i', 'o', 'u', 'x', 'X'].contains kind then
            pass fuel rest (convert d kind p)
          else
            { p with
              complaints := p.complaints ++ ["%" ++ String.ofList [kind] ++ ": invalid directive"]
              ended := true
              unusable := true }
        | [] =>
          { p with
            complaints := p.complaints ++ ["missing format character"]
            ended := true
            unusable := true }

/-- Writes by a format until every argument is used. -/
def passes : Nat → Octets → Progress → Progress
  | 0, _, p => p
  | fuel + 1, format, p =>
    let p := pass (format.length + 1) format { p with used := false }
    if p.ended || !p.used || p.arguments.isEmpty then p else passes fuel format p

/-- What `printf` writes, what is wrong with its arguments, and its status. -/
def printf (format : Octets) (arguments : List Octets) : Octets × List String × Nat :=
  let p := passes (arguments.length + 1) format ⟨[], arguments, [], false, false, false⟩
  (p.written, p.complaints, if p.unusable then 2 else if p.complaints.isEmpty then 0 else 1)

end QueryBuild.Shell.Format

/-!
# Arithmetic of a shell

Expressions over integers of 64 bits. A name stands for the number that a variable holds, and an
assignment gives a variable a new one.
-/

namespace QueryBuild.Shell.Arithmetic

inductive Token where
  | number (n : Int)
  | name (s : String)
  | sign (s : String)
deriving DecidableEq, Inhabited

/-- The signs, the longest first. -/
def signs : List String :=
  ["<<=", ">>=", "&&", "||", "<<", ">>", "<=", ">=", "==", "!=", "+=", "-=", "*=", "/=", "%=",
    "&=", "|=", "^=", "+", "-", "*", "/", "%", "<", ">", "=", "!", "~", "&", "|", "^", "(", ")",
    "?", ":"]

/-- An integer within 64 bits. -/
def wrap (n : Int) : Int :=
  n.bmod (Nat.pow 2 64)

def digit (c : Char) : Nat :=
  if c.isDigit then c.toNat - '0'.toNat
  else if 'a' ≤ c then c.toNat - 'a'.toNat + 10
  else c.toNat - 'A'.toNat + 10

def ofDigits (base : Nat) (digits : List Char) : Int :=
  wrap (digits.foldl (fun n c => n * base + digit c) 0 : Nat)

def isHexDigit (c : Char) : Bool :=
  c.isDigit || ('a' ≤ c && c ≤ 'f') || ('A' ≤ c && c ≤ 'F')

/-- The number at the front of a text and what follows it. -/
def number (text : List Char) : Int × List Char :=
  let hex (rest : List Char) : Int × List Char :=
    let (digits, after) := rest.span isHexDigit
    (ofDigits 16 digits, after)
  match text with
  | '0' :: 'x' :: rest => hex rest
  | '0' :: 'X' :: rest => hex rest
  | '0' :: rest =>
    let (digits, after) := rest.span fun c => '0' ≤ c && c ≤ '7'
    (ofDigits 8 digits, after)
  | _ =>
    let (digits, after) := text.span Char.isDigit
    (ofDigits 10 digits, after)

/-- The pieces of an expression; none if a character belongs to no piece. -/
def tokens : Nat → List Char → Option (List Token)
  | 0, _ => some []
  | _, [] => some []
  | fuel + 1, c :: rest =>
    if c == ' ' || c == '\t' || c == '\n' then tokens fuel rest
    else if c.isDigit then
      let (n, after) := number (c :: rest)
      (tokens fuel after).map (.number n :: ·)
    else if c.isAlpha || c == '_' then
      let (name, after) := (c :: rest).span fun c => c.isAlphanum || c == '_'
      (tokens fuel after).map (.name (String.ofList name) :: ·)
    else
      match signs.find? fun s => s.toList.isPrefixOf (c :: rest) with
      | none => none
      | some s => (tokens fuel ((c :: rest).drop s.length)).map (.sign s :: ·)

inductive Problem where
  | zeroDivision
  | noOperand
  | leftOver
deriving DecidableEq, Inhabited

def Problem.text : Problem → String
  | zeroDivision => "division by zero"
  | noOperand => "expecting primary"
  | leftOver => "expecting EOF"

structure Memory where
  value : String → Int
  /-- The values that the expression gave them, the latest first. -/
  changes : List (String × Int)

def Memory.get (m : Memory) (name : String) : Int :=
  (m.changes.lookup name).getD (m.value name)

/-- How tightly an operator of two operands binds. -/
def strength : String → Option Nat
  | "||" => some 1
  | "&&" => some 2
  | "|" => some 3
  | "^" => some 4
  | "&" => some 5
  | "==" | "!=" => some 6
  | "<" | ">" | "<=" | ">=" => some 7
  | "<<" | ">>" => some 8
  | "+" | "-" => some 9
  | "*" | "/" | "%" => some 10
  | _ => none

def truth (b : Bool) : Int :=
  if b then 1 else 0

def bits (f : UInt64 → UInt64 → UInt64) (a b : Int) : Int :=
  wrap (f (UInt64.ofInt a) (UInt64.ofInt b)).toNat

def apply (sign : String) (a b : Int) : Except Problem Int :=
  match sign with
  | "||" => .ok (truth (a != 0 || b != 0))
  | "&&" => .ok (truth (a != 0 && b != 0))
  | "|" => .ok (bits (· ||| ·) a b)
  | "^" => .ok (bits (· ^^^ ·) a b)
  | "&" => .ok (bits (· &&& ·) a b)
  | "==" => .ok (truth (a == b))
  | "!=" => .ok (truth (a != b))
  | "<" => .ok (truth (a < b))
  | ">" => .ok (truth (a > b))
  | "<=" => .ok (truth (a ≤ b))
  | ">=" => .ok (truth (a ≥ b))
  | "<<" => .ok (wrap (a * Int.pow 2 (b.emod 64).toNat))
  | ">>" => .ok (a.fdiv (Int.pow 2 (b.emod 64).toNat))
  | "+" => .ok (wrap (a + b))
  | "-" => .ok (wrap (a - b))
  | "*" => .ok (wrap (a * b))
  | "/" => if b == 0 then .error .zeroDivision else .ok (wrap (a.tdiv b))
  | "%" => if b == 0 then .error .zeroDivision else .ok (a.tmod b)
  | _ => .error .leftOver

/-- What a part of an expression gives: its value, what follows it, and the variables. -/
abbrev Part := Except Problem (Int × List Token × Memory)

mutual

/-- The value of an assignment or of what can stand in its place. -/
def assigned : Nat → List Token → Memory → Part
  | 0, _, _ => .error .noOperand
  | fuel + 1, ts, m =>
    match ts with
    | .name s :: .sign sign :: rest =>
      if sign == "=" then do
        let (v, rest, m) ← assigned fuel rest m
        return (v, rest, { m with changes := (s, v) :: m.changes })
      else
        match sign.toList.reverse with
        | '=' :: inner =>
          let op := String.ofList inner.reverse
          if (strength op).isSome && !(["==", "!=", "<=", ">="].contains sign) then do
            let (v, rest, m) ← assigned fuel rest m
            let v ← apply op (m.get s) v
            return (v, rest, { m with changes := (s, v) :: m.changes })
          else chosen fuel ts m
        | _ => chosen fuel ts m
    | _ => chosen fuel ts m

def chosen : Nat → List Token → Memory → Part
  | 0, _, _ => .error .noOperand
  | fuel + 1, ts, m => do
    let (test, rest, m) ← binary fuel 1 ts m
    match rest with
    | .sign "?" :: rest =>
      let (yes, rest, afterYes) ← assigned fuel rest m
      match rest with
      | .sign ":" :: rest =>
        let (no, rest, afterNo) ← assigned fuel rest m
        return if test != 0 then (yes, rest, afterYes) else (no, rest, afterNo)
      | _ => .error .leftOver
    | _ => return (test, rest, m)

/-- The value of operations that bind at least as tightly as a number says. -/
def binary : Nat → Nat → List Token → Memory → Part
  | 0, _, _, _ => .error .noOperand
  | fuel + 1, least, ts, m => do
    let (a, rest, m) ← operand fuel ts m
    continued fuel least a rest m

/-- The value of operations that go on after a first operand. -/
def continued : Nat → Nat → Int → List Token → Memory → Part
  | 0, _, _, _, _ => .error .noOperand
  | fuel + 1, least, a, ts, m =>
    match ts with
    | .sign sign :: rest =>
      match strength sign with
      | none => .ok (a, ts, m)
      | some n =>
        if n < least then .ok (a, ts, m)
        else
          match binary fuel (n + 1) rest m with
          | .error e =>
            let settled := (sign == "||" && a != 0) || (sign == "&&" && a == 0)
            if settled && e == .zeroDivision then .ok (truth (a != 0), [], m) else .error e
          | .ok (b, rest, m) => do
            let v ← apply sign a b
            continued fuel least v rest m
    | _ => .ok (a, ts, m)

def operand : Nat → List Token → Memory → Part
  | 0, _, _ => .error .noOperand
  | fuel + 1, ts, m =>
    match ts with
    | .number n :: rest => .ok (n, rest, m)
    | .name s :: rest => .ok (m.get s, rest, m)
    | .sign "-" :: rest => do
      let (v, rest, m) ← operand fuel rest m
      return (wrap (-v), rest, m)
    | .sign "+" :: rest => operand fuel rest m
    | .sign "!" :: rest => do
      let (v, rest, m) ← operand fuel rest m
      return (truth (v == 0), rest, m)
    | .sign "~" :: rest => do
      let (v, rest, m) ← operand fuel rest m
      return (-v - 1, rest, m)
    | .sign "(" :: rest => do
      let (v, rest, m) ← assigned fuel rest m
      match rest with
      | .sign ")" :: rest => return (v, rest, m)
      | _ => .error .noOperand
    | _ => .error .noOperand

end

/-- The value of an expression and the values that it gives to variables, the latest first. An
empty expression is zero. -/
def evaluate (value : String → Int) (text : List Char) :
    Except Problem (Int × List (String × Int)) :=
  match tokens (text.length + 1) text with
  | none => .error .leftOver
  | some [] => .ok (0, [])
  | some ts => do
    let (v, rest, m) ← assigned (8 * ts.length + 8) ts ⟨value, []⟩
    if rest.isEmpty then return (v, m.changes) else .error .leftOver

end QueryBuild.Shell.Arithmetic

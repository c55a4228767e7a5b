import QueryBuild.Files.Access
import QueryBuild.Text.Octets
/-!
# Conditions

The questions that `test` answers about texts, numbers and files.
-/

namespace QueryBuild.Shell.Condition

/-- What a path leads to; with `follow`, through a link at its end. -/
def entryAt (fs : FileSystem) (follow : Bool) (path : Octets) : Option Entry :=
  match fs.resolve follow ⟨Octets.toText path⟩ with
  | .ok target => target.entry
  | .error _ => none

def unary (fs : FileSystem) (question : String) (argument : Octets) : Option Bool :=
  let entry := entryAt fs true argument
  let has (p : Entry → Bool) : Bool := entry.any p
  match question with
  | "-n" => some !argument.isEmpty
  | "-z" => some argument.isEmpty
  | "-e" | "-r" | "-w" => some entry.isSome
  | "-f" => some (has Entry.isFile)
  | "-d" => some (has Entry.isDirectory)
  | "-s" => some (has fun e => match e with
      | .file contents _ _ => contents.size > 0
      | _ => true)
  | "-x" => some (has fun e => match e with
      | .file _ _ executable => executable
      | .directory _ => true
      | .link _ => false)
  | "-h" | "-L" => some ((entryAt fs false argument).any fun e => match e with
      | .link _ => true
      | _ => false)
  | "-b" | "-c" | "-p" | "-S" | "-t" | "-u" | "-g" | "-k" => some false
  | _ => none

def number? (text : Octets) : Option Int :=
  let text := (text.dropWhile (· == ' ')).reverse.dropWhile (· == ' ') |>.reverse
  let digits? (cs : List Char) : Option Nat :=
    if !cs.isEmpty && cs.all Char.isDigit then some (Nat.ofDigitChars 10 cs 0) else none
  match text with
  | '-' :: rest => (digits? rest).map fun n => -(n : Int)
  | '+' :: rest => (digits? rest).map fun n => (n : Int)
  | rest => (digits? rest).map fun n => (n : Int)

def isBinary (question : String) : Bool :=
  ["=", "==", "!=", "<", ">", "-eq", "-ne", "-lt", "-le", "-gt", "-ge", "-nt", "-ot",
    "-ef"].contains question

/-- The questions about two arguments; an argument that is no number is an error. -/
def binary (fs : FileSystem) (left : Octets) (question : String) (right : Octets) :
    Except String Bool :=
  let numbers (f : Int → Int → Bool) : Except String Bool :=
    match number? left, number? right with
    | some a, some b => .ok (f a b)
    | none, _ => .error ("Illegal number: " ++ Octets.toText left)
    | _, none => .error ("Illegal number: " ++ Octets.toText right)
  let times (f : Instant → Instant → Bool) : Except String Bool :=
    match entryAt fs true left, entryAt fs true right with
    | some a, some b => .ok (f a.modified b.modified)
    | _, _ => .ok false
  match question with
  | "=" | "==" => .ok (left == right)
  | "!=" => .ok (left != right)
  | "<" => .ok (decide (left < right))
  | ">" => .ok (decide (right < left))
  | "-eq" => numbers fun a b => a == b
  | "-ne" => numbers fun a b => a != b
  | "-lt" => numbers fun a b => decide (a < b)
  | "-le" => numbers fun a b => decide (a ≤ b)
  | "-gt" => numbers fun a b => decide (a > b)
  | "-ge" => numbers fun a b => decide (a ≥ b)
  | "-nt" => times fun a b => decide (a > b)
  | "-ot" => times fun a b => decide (a < b)
  | "-ef" =>
    match fs.canonicalize ⟨Octets.toText left⟩, fs.canonicalize ⟨Octets.toText right⟩ with
    | .ok a, .ok b => .ok (a == b)
    | _, _ => .ok false
  | _ => .error (question ++ ": unexpected operator")

mutual

/-- The answer to questions joined by "or", and the arguments that are left. -/
def anyOf (fs : FileSystem) : Nat → List Octets → Except String (Bool × List Octets)
  | 0, _ => .error "argument expected"
  | fuel + 1, arguments => do
    let (a, rest) ← allOf fs fuel arguments
    match rest with
    | ['-', 'o'] :: rest =>
      let (b, rest) ← anyOf fs fuel rest
      return (a || b, rest)
    | _ => return (a, rest)

def allOf (fs : FileSystem) : Nat → List Octets → Except String (Bool × List Octets)
  | 0, _ => .error "argument expected"
  | fuel + 1, arguments => do
    let (a, rest) ← single fs fuel arguments
    match rest with
    | ['-', 'a'] :: rest =>
      let (b, rest) ← allOf fs fuel rest
      return (a && b, rest)
    | _ => return (a, rest)

def single (fs : FileSystem) : Nat → List Octets → Except String (Bool × List Octets)
  | 0, _ => .error "argument expected"
  | fuel + 1, arguments =>
    let plain : Except String (Bool × List Octets) :=
      match arguments with
      | ['!'] :: rest@(_ :: _) => do
        let (a, rest) ← single fs fuel rest
        return (!a, rest)
      | ['('] :: rest@(_ :: _) => do
        let (a, rest) ← anyOf fs fuel rest
        match rest with
        | [')'] :: rest => return (a, rest)
        | _ => .error "closing paren expected"
      | question :: argument :: rest =>
        match unary fs (Octets.toText question) argument with
        | some a => .ok (a, rest)
        | none => .ok (!question.isEmpty, argument :: rest)
      | [argument] => .ok (!argument.isEmpty, [])
      | [] => .error "argument expected"
    match arguments with
    | left :: question :: right :: rest =>
      if isBinary (Octets.toText question) then
        (binary fs left (Octets.toText question) right).map fun a => (a, rest)
      else plain
    | _ => plain

end

def holds (fs : FileSystem) (arguments : List Octets) : Except String Bool :=
  match arguments with
  | [] => .ok false
  | [first, second] =>
    match unary fs (Octets.toText first) second with
    | some answer => .ok answer
    | none =>
      if first == ['!'] then .ok second.isEmpty
      else .error (Octets.toText first ++ ": unexpected operator")
  | _ =>
    match anyOf fs (3 * arguments.length + 3) arguments with
    | .error e => .error e
    | .ok (a, []) => .ok a
    | .ok (_, extra :: _) => .error (Octets.toText extra ++ ": unexpected operator")

end QueryBuild.Shell.Condition

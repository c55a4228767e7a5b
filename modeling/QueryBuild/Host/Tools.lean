import QueryBuild.Digest
import QueryBuild.Files.Access
import QueryBuild.Shell.Condition
import QueryBuild.Shell.Format
import QueryBuild.Text.Case
import QueryBuild.Text.Expression
/-!
# Tools

The small programs that a computer has besides compilers: they look at files, change them and pass
text on.
-/

namespace QueryBuild.Host

/-- How a tool is called. -/
structure Request where
  name : Octets
  arguments : List Octets
  input : Octets
  environment : List (String × Octets)
deriving Inhabited

/-- What a tool has done so far. -/
structure Work where
  status : Nat
  /-- What was written, with the descriptors it was written to. -/
  written : List (Nat × Octets)
  files : FileSystem
  /-- The input that was not read. -/
  unread : Octets
deriving Inhabited

abbrev Tool := Request → StateM Work Unit

namespace Tool

def say (text : Octets) : StateM Work Unit :=
  modify fun w => { w with written := w.written ++ [(1, text)] }

def sayLine (text : Octets) : StateM Work Unit :=
  say (text ++ ['\n'])

def refuse (r : Request) (status : Nat) (text : String) : StateM Work Unit :=
  modify fun w => { w with
    status := status
    written := w.written ++ [(2, r.name ++ Octets.ofText (": " ++ text ++ "\n"))] }

def complain (r : Request) (text : String) : StateM Work Unit :=
  refuse r 1 text

def finish (status : Nat) : StateM Work Unit :=
  modify fun w => { w with status := status }

def pathOf (argument : Octets) : Path :=
  ⟨Octets.toText argument⟩

def shown (argument : Octets) : String :=
  "'" ++ Octets.toText argument ++ "'"

/-- The options in front of the other arguments, and those. -/
def options : List Octets → List Octets × List Octets
  | ['-', '-'] :: rest => ([], rest)
  | ('-' :: c :: more) :: rest =>
    let (found, rest) := options rest
    (('-' :: c :: more) :: found, rest)
  | rest => ([], rest)

def hasLetter (c : Char) (found : List Octets) : Bool :=
  found.any fun option => option.drop 1 |>.contains c

def change (r : Request) (trouble : String) (f : FileSystem → Except IoError FileSystem) :
    StateM Work Unit := do
  match f (← get).files with
  | .ok files => modify fun w => { w with files := files }
  | .error e => complain r (trouble ++ ": " ++ e.reason)

/-- The last part of a path without the slashes behind it. -/
def baseOf (argument : Octets) : Octets :=
  let trimmed := Text.dropTail (· == '/') argument
  if trimmed.isEmpty then argument.take 1
  else (trimmed.reverse.takeWhile (· != '/')).reverse

/-- A path without its last part. -/
def directoryOf (argument : Octets) : Octets :=
  let trimmed := Text.dropTail (· == '/') argument
  if trimmed.isEmpty then (if argument.isEmpty then ['.'] else ['/'])
  else
    let before := (trimmed.reverse.dropWhile (· != '/')).reverse
    if before.isEmpty then ['.']
    else
      let before := Text.dropTail (· == '/') before
      if before.isEmpty then ['/'] else before

/-- The target of a copy: in a directory, the name of the source. -/
def targetOf (fs : FileSystem) (source target : Octets) : Octets :=
  match fs.find (pathOf target) with
  | .ok (_, .directory _) =>
    if target.getLast? == some '/' then target ++ baseOf source
    else target ++ ['/'] ++ baseOf source
  | _ => target

def basename : Tool := fun r =>
  match (options r.arguments).2 with
  | [] => complain r "missing operand"
  | [path] => sayLine (baseOf path)
  | path :: ending :: _ =>
    let base := baseOf path
    if ending.isSuffixOf base && ending != base then
      sayLine (base.take (base.length - ending.length))
    else sayLine base

def dirname : Tool := fun r =>
  match (options r.arguments).2 with
  | [] => complain r "missing operand"
  | paths => do
    for path in paths do
      sayLine (directoryOf path)

def cat : Tool := fun r => do
  let names := (options r.arguments).2
  for name in if names.isEmpty then [['-']] else names do
    if name == ['-'] then
      say (← get).unread
      modify fun w => { w with unread := [] }
    else
      match (← get).files.read (pathOf name) with
      | .ok contents => say (Octets.ofBytes contents)
      | .error e => complain r (Octets.toText name ++ ": " ++ e.reason)

/-- The time that options of `touch` ask for, and the names of the files. -/
def timeOf (fs : FileSystem) : List Octets → Option Instant × List Octets
  | ['-', 'd'] :: ('@' :: seconds) :: rest =>
    (some (((Shell.Condition.number? seconds).getD 0) * 1000000000), rest)
  | ['-', 'r'] :: name :: rest => ((fs.modified (pathOf name)).toOption, rest)
  | rest => (none, rest)

def touch : Tool := fun r => do
  let start := (← get).files
  let (time, arguments) := timeOf start r.arguments
  let time := time.getD start.now
  let (found, names) := options arguments
  for name in names do
    let path := pathOf name
    match (← get).files.setModified path time with
    | .ok files => modify fun w => { w with files := files }
    | .error e =>
      if e == .notFound && hasLetter 'c' found then pure ()
      else change r ("cannot touch " ++ shown name) fun fs => do
        (← fs.write path .empty).setModified path time

/-- Whether a mode lets files be executed; none if it does not say. -/
def executableBy (mode : Octets) : Option Bool :=
  match mode with
  | c :: _ =>
    if c.isDigit then some (mode.any fun d => (d.toNat - '0'.toNat) % 2 == 1)
    else if mode.contains 'x' then some !(mode.contains '-') else none
  | [] => none

def chmod : Tool := fun r => do
  match r.arguments.filter (· != ['-', 'R']) with
  | mode :: names =>
    for name in names do
      change r ("cannot access " ++ shown name) fun fs =>
        match executableBy mode with
        | some executable => fs.setExecutable (pathOf name) executable
        | none => (fs.find (pathOf name)).map fun _ => fs
  | [] => complain r "missing operand"

def copyFile (fs : FileSystem) (source target : Path) : Except IoError FileSystem := do
  let (_, entry) ← fs.find source
  match entry with
  | .file contents _ executable =>
    let isNew := !(fs.isFile target)
    let fs ← fs.write target contents
    if isNew then fs.setExecutable target executable else .ok fs
  | _ => .error .isDirectory

def cp : Tool := fun r => do
  let (_, names) := options r.arguments
  match names.reverse with
  | target :: sources@(_ :: _) =>
    for source in sources.reverse do
      match (← get).files.find (pathOf source) with
      | .error e => complain r ("cannot stat " ++ shown source ++ ": " ++ e.reason)
      | .ok (_, .directory _) =>
        complain r ("-r not specified; omitting directory " ++ shown source)
      | .ok _ =>
        let target := targetOf (← get).files source target
        change r ("cannot create regular file " ++ shown target) fun fs =>
          copyFile fs (pathOf source) (pathOf target)
  | [only] => complain r ("missing destination file operand after " ++ shown only)
  | [] => complain r "missing file operand"

def mv : Tool := fun r => do
  let (_, names) := options r.arguments
  match names.reverse with
  | target :: sources@(_ :: _) =>
    for source in sources.reverse do
      match (← get).files.resolve false (pathOf source) with
      | .ok ⟨location, some _⟩ =>
        let target := targetOf (← get).files source target
        change r ("cannot move " ++ shown source ++ " to " ++ shown target) fun fs =>
          (fs.resolve false (pathOf target)).map fun found => fs.move location found.location
      | .ok _ => complain r ("cannot stat " ++ shown source ++ ": " ++ IoError.reason .notFound)
      | .error e => complain r ("cannot stat " ++ shown source ++ ": " ++ e.reason)
  | [only] => complain r ("missing destination file operand after " ++ shown only)
  | [] => complain r "missing file operand"

def rm : Tool := fun r => do
  let (found, names) := options r.arguments
  let force := hasLetter 'f' found
  let deep := hasLetter 'r' found || hasLetter 'R' found
  for name in names do
    match (← get).files.resolve false (pathOf name) with
    | .ok ⟨_, some (.directory _)⟩ =>
      if deep then
        change r ("cannot remove " ++ shown name) fun fs => fs.remove (pathOf name)
      else complain r ("cannot remove " ++ shown name ++ ": Is a directory")
    | .ok ⟨_, some _⟩ =>
      change r ("cannot remove " ++ shown name) fun fs => fs.remove (pathOf name)
    | .ok _ =>
      if !force then
        complain r ("cannot remove " ++ shown name ++ ": " ++ IoError.reason .notFound)
    | .error e =>
      if !force then complain r ("cannot remove " ++ shown name ++ ": " ++ e.reason)

def mkdir : Tool := fun r => do
  let (found, names) := options r.arguments
  let deep := hasLetter 'p' found
  for name in names do
    let trouble := "cannot create directory " ++ shown name
    let parts := FileSystem.steps (Octets.toText name)
    let paths := if deep then
        (List.range parts.length).map fun n =>
          let start := if name.head? == some '/' then "/" else ""
          Path.mk (start ++ "/".intercalate (parts.take (n + 1)))
      else [pathOf (Text.dropTail (· == '/') name)]
    for path in paths do
      match (← get).files.resolve true path with
      | .ok ⟨location, none⟩ =>
        modify fun w => { w with files := w.files.create location (.directory w.files.now) }
      | .ok ⟨_, some (.directory _)⟩ => if !deep then complain r (trouble ++ ": File exists")
      | .ok _ => complain r (trouble ++ ": File exists")
      | .error e => complain r (trouble ++ ": " ++ e.reason)

def rmdir : Tool := fun r => do
  for name in (options r.arguments).2 do
    let trouble := "failed to remove " ++ shown name
    let fs := (← get).files
    match fs.resolve false (pathOf name) with
    | .ok ⟨location, some (.directory _)⟩ =>
      if (fs.listDirectory location).isEmpty then
        change r trouble fun fs => fs.remove (pathOf name)
      else complain r (trouble ++ ": Directory not empty")
    | .ok ⟨_, some _⟩ => complain r (trouble ++ ": Not a directory")
    | .ok _ => complain r (trouble ++ ": " ++ IoError.reason .notFound)
    | .error e => complain r (trouble ++ ": " ++ e.reason)

def ln : Tool := fun r => do
  let (found, names) := options r.arguments
  match names with
  | [target, name] =>
    let name := targetOf (← get).files target name
    if hasLetter 's' found then
      match (← get).files.resolve false (pathOf name) with
      | .ok ⟨location, none⟩ =>
        modify fun w => { w with files := w.files.makeLink location (Octets.toText target) }
      | .ok ⟨location, some _⟩ =>
        if hasLetter 'f' found then
          modify fun w => { w with files := w.files.makeLink location (Octets.toText target) }
        else complain r ("failed to create symbolic link " ++ shown name ++ ": File exists")
      | .error e =>
        complain r ("failed to create symbolic link " ++ shown name ++ ": " ++ e.reason)
    else
      change r ("failed to access " ++ shown target) fun fs =>
        copyFile fs (pathOf target) (pathOf name)
  | _ => complain r "missing file operand"

def ls : Tool := fun r => do
  let (found, names) := options r.arguments
  for name in if names.isEmpty then [['.']] else names do
    let fs := (← get).files
    match fs.find (pathOf name) with
    | .ok (location, .directory _) =>
      let all := (fs.listDirectory location).map Prod.fst
      let seen := all.filter fun n =>
        hasLetter 'a' found || hasLetter 'A' found || n.head? != some '.'.toUInt8
      let extra := if hasLetter 'a' found then [['.'], ['.', '.']] else []
      for line in extra ++ seen.map fun n => Octets.ofBytes (FileName.bytes n) do
        sayLine line
    | .ok _ => sayLine name
    | .error e => refuse r 2 ("cannot access " ++ shown name ++ ": " ++ e.reason)

def linesOf (text : Octets) : List Octets :=
  Text.splitAfter (· == '\n') text

def textOf (r : Request) (names : List Octets) : StateM Work Octets := do
  if names.isEmpty then
    let text := (← get).unread
    modify fun w => { w with unread := [] }
    return text
  else
    let mut all := []
    for name in names do
      match (← get).files.read (pathOf name) with
      | .ok contents => all := all ++ Octets.ofBytes contents
      | .error e => complain r (Octets.toText name ++ ": " ++ e.reason)
    return all

/-- A count that options give, and whether it counts bytes. -/
def countOf : List Octets → Nat × Bool × List Octets
  | ['-', 'n'] :: n :: rest => (Nat.ofDigitChars 10 (n.filter Char.isDigit) 0, false, rest)
  | ['-', 'c'] :: n :: rest => (Nat.ofDigitChars 10 (n.filter Char.isDigit) 0, true, rest)
  | ('-' :: 'c' :: n) :: rest => (Nat.ofDigitChars 10 (n.filter Char.isDigit) 0, true, rest)
  | ('-' :: 'n' :: n) :: rest => (Nat.ofDigitChars 10 (n.filter Char.isDigit) 0, false, rest)
  | ('-' :: n@(_ :: _)) :: rest => (Nat.ofDigitChars 10 (n.filter Char.isDigit) 0, false, rest)
  | rest => (10, false, rest)

def head : Tool := fun r => do
  let (n, bytes, names) := countOf r.arguments
  let text ← textOf r names
  say (if bytes then text.take n else ((linesOf text).take n).flatten)

def tail : Tool := fun r => do
  let (n, bytes, names) := countOf r.arguments
  let text ← textOf r names
  let lines := linesOf text
  say (if bytes then text.drop (text.length - n) else (lines.drop (lines.length - n)).flatten)

def wc : Tool := fun r => do
  let (found, names) := options r.arguments
  let text ← textOf r names
  let counts := [('l', text.count '\n'),
    ('w', (Text.splitOn Char.isWhitespace text |>.filter (· != [])).length), ('c', text.length)]
  let wanted := counts.filter fun (c, _) => found.isEmpty || hasLetter c found
  let width := if wanted.length == 1 then 1
    else if names.isEmpty then 7 else (Nat.toDigits 10 text.length).length
  let cells := wanted.map fun (_, n) =>
    let digits := Nat.toDigits 10 n
    List.replicate (width - digits.length) ' ' ++ digits
  let label := match names with
    | [name] => [name]
    | _ => []
  sayLine (List.intercalate [' '] (cells ++ label))

def withoutEnd (line : Octets) : Octets :=
  Text.dropTail (· == '\n') line

def sort : Tool := fun r => do
  let (found, names) := options r.arguments
  let lines := (linesOf (← textOf r names)).map withoutEnd
  let numeric (line : Octets) : Int := (Shell.Format.numberOf line).1
  let before (a b : Octets) : Bool :=
    if hasLetter 'n' found && numeric a != numeric b then decide (numeric a < numeric b)
    else !b.lex a
  let sorted := lines.mergeSort before
  let sorted := if hasLetter 'u' found then sorted.eraseReps else sorted
  for line in if hasLetter 'r' found then sorted.reverse else sorted do
    sayLine line

def uniq : Tool := fun r => do
  let lines := (linesOf (← textOf r (options r.arguments).2)).map withoutEnd
  for line in lines.eraseReps do
    sayLine line

/-- The characters of a set such as `a-z`. -/
def charactersOf : List Char → List Char
  | a :: '-' :: b :: rest =>
    (List.range (b.toNat + 1 - a.toNat)).map (fun n => Char.ofNat (a.toNat + n)) ++
      charactersOf rest
  | '\\' :: c :: rest => (Shell.Format.escape (c :: rest)).1 :: charactersOf rest
  | c :: rest => c :: charactersOf rest
  | [] => []

def tr : Tool := fun r => do
  let (found, sets) := options r.arguments
  let text ← textOf r []
  match sets with
  | [dropped] =>
    let dropped := charactersOf dropped
    say (if hasLetter 'd' found then text.filter fun c => !dropped.contains c else text)
  | source :: target :: _ =>
    let source := charactersOf source
    let target := charactersOf target
    let last := target.getLast?
    let pairs := source.zip (target ++
      List.replicate (source.length - target.length) (last.getD ' '))
    say (text.map fun c => (pairs.lookup c).getD c)
  | [] => complain r "missing operand"

def seq : Tool := fun r => do
  let number (a : Octets) : Int := (Shell.Format.numberOf a).1
  let (first, step, last) : Int × Int × Int := match r.arguments with
    | [last] => (1, 1, number last)
    | [first, last] => (number first, 1, number last)
    | first :: step :: last :: _ => (number first, number step, number last)
    | [] => (1, 1, 0)
  let count := if step > 0 then (last - first) / step + 1
    else if step < 0 then (first - last) / (-step) + 1 else 0
  for n in List.range count.toNat do
    sayLine (Octets.ofText (toString (first + n * step)))

def tee : Tool := fun r => do
  let (found, names) := options r.arguments
  let text ← textOf r []
  say text
  for name in names do
    change r (Octets.toText name) fun fs =>
      if hasLetter 'a' found then fs.append (pathOf name) (Octets.toBytes text)
      else fs.write (pathOf name) (Octets.toBytes text)

def printenv : Tool := fun r => do
  match r.arguments with
  | [] =>
    for (name, value) in r.environment do
      sayLine (Octets.ofText name ++ ['='] ++ value)
  | names =>
    for name in names do
      match r.environment.lookup (Octets.toText name) with
      | some value => sayLine value
      | none => finish 1

def pwd : Tool := fun _ => do
  sayLine (Octets.ofText (Location.path (← get).files.workingDirectory).text)

def readlink : Tool := fun r => do
  let (found, names) := options r.arguments
  for name in names do
    let fs := (← get).files
    if hasLetter 'f' found then
      match fs.resolve true (pathOf name) with
      | .ok target => sayLine (Octets.ofText (Location.path target.location).text)
      | .error _ => finish 1
    else
      match fs.resolve false (pathOf name) with
      | .ok ⟨_, some (.link target)⟩ => sayLine (Octets.ofText target)
      | _ => finish 1

def echo : Tool := fun r => do
  match r.arguments with
  | ['-', 'n'] :: words => say (List.intercalate [' '] words)
  | words => sayLine (List.intercalate [' '] words)

def printf : Tool := fun r => do
  match r.arguments with
  | format :: arguments =>
    let (text, complaints, status) := Shell.Format.printf format arguments
    say text
    for c in complaints do
      complain r c
    finish status
  | [] => complain r "missing operand"

def test : Tool := fun r => do
  match Shell.Condition.holds (← get).files r.arguments with
  | .ok answer => finish (if answer then 0 else 1)
  | .error e => refuse r 2 e

/-- The expression that arguments of a search give, and the other arguments. -/
def expressionOf (r : Request) : List Octets × Option Octets × List Octets :=
  let (found, rest) := options r.arguments
  match rest with
  | pattern :: names => (found, some pattern, names)
  | [] => (found, none, [])

def grep : Tool := fun r => do
  match expressionOf r with
  | (_, none, _) => refuse r 2 "no pattern"
  | (found, some pattern, names) =>
    let has (c : Char) : Bool := hasLetter c found
    let fold (text : Octets) : Octets := if has 'i' then text.map Char.toLower else text
    let expression :=
      if has 'F' then Text.Expression.literal (fold pattern)
      else Text.Expression.ofText (has 'E') (fold pattern)
    let label (name : Octets) : Octets :=
      if names.length > 1 && !has 'h' then name ++ [':'] else []
    let mut seen := false
    let mut failed := false
    for name in if names.isEmpty then [['-']] else names do
      let text ← if name == ['-'] then pure (some (← textOf r [])) else do
        match (← get).files.read (pathOf name) with
        | .ok contents => pure (some (Octets.ofBytes contents))
        | .error e =>
          if !has 's' then refuse r 2 (Octets.toText name ++ ": " ++ e.reason)
          pure none
      match text with
      | none => failed := true
      | some text =>
        let lines := (linesOf text).map withoutEnd
        let chosen := (List.range lines.length).zip lines |>.filter fun (_, line) =>
          (expression.matchesIn (fold line)) != has 'v'
        if !chosen.isEmpty then seen := true
        if has 'q' then pure ()
        else if has 'c' then sayLine (label name ++ Octets.ofText (toString chosen.length))
        else if has 'l' then
          if !chosen.isEmpty then sayLine name
        else
          for (n, line) in chosen do
            let number := if has 'n' then Octets.ofText (toString (n + 1) ++ ":") else []
            sayLine (label name ++ number ++ line)
    finish (if seen && (has 'q' || !failed) then 0 else if failed then 2 else 1)

/-- The text that stands for a match. -/
def replacement (found : Octets) : List Char → Octets
  | [] => []
  | '\\' :: 'n' :: rest => '\n' :: replacement found rest
  | '\\' :: c :: rest => c :: replacement found rest
  | '&' :: rest => found ++ replacement found rest
  | c :: rest => c :: replacement found rest

/-- A line in which matches are replaced: the first one, or all of them. -/
def replaced (e : Text.Expression) (target : Octets) (all : Bool) (length : Nat) :
    Nat → Octets → Octets
  | 0, line => line
  | fuel + 1, line =>
    match e.search length line with
    | none => line
    | some (before, found, after) =>
      let first := before ++ replacement found target
      if !all then first ++ after
      else
        match found, after with
        | [], c :: after => first ++ [c] ++ replaced e target all length fuel after
        | [], [] => first
        | _, after => first ++ replaced e target all length fuel after

/-- The parts of an editing command, which its second character separates. -/
def editingParts (command : Octets) : Option (Octets × Octets × Octets) :=
  match command with
  | 's' :: mark :: rest =>
    match Text.splitOn (· == mark) rest with
    | [pattern, target, flags] => some (pattern, target, flags)
    | _ => none
  | _ => none

def sed : Tool := fun r => do
  let (found, rest) := options r.arguments
  match rest with
  | [] => complain r "no script specified"
  | command :: names =>
    match editingParts command with
    | none => complain r ("-e expression #1, char 1: unknown command: `" ++
        Octets.toText (command.take 1) ++ "'")
    | some (pattern, target, flags) =>
      let e := Text.Expression.ofText (hasLetter 'E' found || hasLetter 'r' found) pattern
      for line in linesOf (← textOf r names) do
        let text := withoutEnd line
        say (replaced e target (flags.contains 'g') text.length (text.length + 1) text ++
          line.drop text.length)

/-- The fields or bytes that a list such as `1,3-5` names. -/
def listed (ranges : Octets) (n : Nat) : Bool :=
  (Text.splitOn (· == ',') ranges).any fun range =>
    let number (digits : Octets) (standard : Nat) : Nat :=
      if digits.isEmpty then standard else Nat.ofDigitChars 10 digits 0
    match Text.splitOn (· == '-') range with
    | [only] => number only 0 == n
    | [low, high] => number low 1 ≤ n && n ≤ number high n
    | _ => false

/-- The options of `cut`: what separates fields, the fields, the bytes, and the files. -/
def cutOptions : List Octets → Char × Octets × Octets × List Octets
  | ['-', 'd'] :: (c :: _) :: rest =>
    let (_, fields, bytes, names) := cutOptions rest
    (c, fields, bytes, names)
  | ('-' :: 'd' :: c :: _) :: rest =>
    let (_, fields, bytes, names) := cutOptions rest
    (c, fields, bytes, names)
  | ['-', 'f'] :: list :: rest =>
    let (c, _, bytes, names) := cutOptions rest
    (c, list, bytes, names)
  | ('-' :: 'f' :: list) :: rest =>
    let (c, _, bytes, names) := cutOptions rest
    (c, list, bytes, names)
  | ('-' :: _ :: list@(_ :: _)) :: rest =>
    let (c, fields, _, names) := cutOptions rest
    (c, fields, list, names)
  | ['-', _] :: list :: rest =>
    let (c, fields, _, names) := cutOptions rest
    (c, fields, list, names)
  | rest => ('\t', [], [], rest)

def cut : Tool := fun r => do
  let (separator, fields, bytes, names) := cutOptions r.arguments
  for line in (linesOf (← textOf r names)).map withoutEnd do
    if bytes.isEmpty then
      let parts := Text.splitOn (· == separator) line
      let chosen := (List.range parts.length).zip parts |>.filterMap fun (n, part) =>
        if listed fields (n + 1) then some part else none
      sayLine (if parts.length == 1 then line else List.intercalate [separator] chosen)
    else
      sayLine ((List.range line.length).zip line |>.filterMap fun (n, c) =>
        if listed bytes (n + 1) then some c else none)

def expr : Tool := fun r => do
  let number? := Shell.Condition.number?
  let answer (n : Int) : StateM Work Unit := do
    sayLine (Octets.ofText (toString n))
    finish (if n == 0 then 1 else 0)
  match r.arguments with
  | [only] => do
    sayLine only
    finish (if only.isEmpty || number? only == some 0 then 1 else 0)
  | [left, [sign], right] =>
    match number? left, number? right with
    | some a, some b =>
      match sign with
      | '+' => answer (a + b)
      | '-' => answer (a - b)
      | '*' => answer (a * b)
      | '/' => if b == 0 then refuse r 2 "division by zero" else answer (a.tdiv b)
      | '%' => if b == 0 then refuse r 2 "division by zero" else answer (a.tmod b)
      | '=' => answer (if a == b then 1 else 0)
      | '<' => answer (if a < b then 1 else 0)
      | '>' => answer (if a > b then 1 else 0)
      | _ => refuse r 2 "syntax error"
    | _, _ =>
      if sign == '=' then answer (if left == right then 1 else 0)
      else refuse r 2 "non-integer argument"
  | _ => refuse r 2 "syntax error"

def cmp : Tool := fun r => do
  let (found, names) := options r.arguments
  let silent := hasLetter 's' found
  match names with
  | [left, right] =>
    let fs := (← get).files
    match fs.read (pathOf left), fs.read (pathOf right) with
    | .ok a, .ok b =>
      if a == b then pure ()
      else
        let same := ((Octets.ofBytes a).zip (Octets.ofBytes b)).takeWhile fun (x, y) => x == y
        let line := (same.filter fun (x, _) => x == '\n').length + 1
        if !silent then
          sayLine (left ++ [' '] ++ right ++ Octets.ofText
            (" differ: char " ++ toString (same.length + 1) ++ ", line " ++ toString line))
        finish 1
    | .error e, _ =>
      if silent then finish 2 else refuse r 2 (Octets.toText left ++ ": " ++ e.reason)
    | _, .error e =>
      if silent then finish 2 else refuse r 2 (Octets.toText right ++ ": " ++ e.reason)
  | _ => refuse r 2 "missing operand"

def sha256sum : Tool := fun r => do
  let (_, names) := options r.arguments
  for name in if names.isEmpty then [['-']] else names do
    if name == ['-'] then
      let text ← textOf r []
      sayLine (Octets.ofText (Digest.sha256Hex (Octets.toBytes text) ++ "  -"))
    else
      match (← get).files.read (pathOf name) with
      | .ok contents =>
        sayLine (Octets.ofText (Digest.sha256Hex contents ++ "  ") ++ name)
      | .error e => complain r (Octets.toText name ++ ": " ++ e.reason)

/-- The headers that a compiler brings along. -/
def headers : List String :=
  ["iostream", "string", "vector", "map", "memory", "cstdio", "cstdlib", "stdio.h", "stdlib.h"]

/-- The header that a line includes, with the column in which its name starts. -/
def included (line : Octets) : Option (Octets × Nat) :=
  let marker := "#include <".toList
  if marker.isPrefixOf line then
    some ((line.drop marker.length).takeWhile (· != '>'), marker.length)
  else none

/-- The first line that includes a header which cannot be found, and its number. -/
def missingHeader (number : Nat) : List Octets → Option (Nat × Octets × Octets × Nat)
  | [] => none
  | line :: lines =>
    match included line with
    | some (header, column) =>
      if headers.contains (Octets.toText header) then missingHeader (number + 1) lines
      else some (number, line, header, column)
    | none => missingHeader (number + 1) lines

/-- A compiler for programs that need nothing but the headers it brings along. -/
def compiler : Tool := fun r => do
  let write (text : String) : StateM Work Unit :=
    modify fun w => { w with status := 1, written := w.written ++ [(2, Octets.ofText text)] }
  match r.arguments.filter fun a => a.head? != some '-' with
  | [] => write (Octets.toText r.name ++ ": fatal error: no input files\ncompilation terminated.\n")
  | program :: _ =>
    let shown := Octets.toText program
    match (← get).files.read (pathOf program) with
    | .error e =>
      write ("cc1plus: fatal error: " ++ shown ++ ": " ++ e.reason ++
        "\ncompilation terminated.\n")
    | .ok contents =>
      let lines := (linesOf (Octets.ofBytes contents)).map withoutEnd
      match missingHeader 1 lines with
      | none => pure ()
      | some (number, line, header, column) =>
        let digits := toString number
        let margin := "".pushn ' ' (5 - digits.length)
        write (shown ++ ":" ++ digits ++ ":" ++ toString column ++ ": fatal error: " ++
          Octets.toText header ++ ": No such file or directory\n" ++
          margin ++ digits ++ " | " ++ Octets.toText line ++ "\n" ++
          "      | " ++ "".pushn ' ' (column - 1) ++ "^" ++
          "".pushn '~' (header.length + 1) ++ "\n" ++
          "compilation terminated.\n")

def named : List (String × Tool) := [
  ("basename", basename), ("dirname", dirname), ("cat", cat), ("touch", touch), ("chmod", chmod),
  ("cp", cp), ("mv", mv), ("rm", rm), ("mkdir", mkdir), ("rmdir", rmdir), ("ln", ln), ("ls", ls),
  ("head", head), ("tail", tail), ("wc", wc), ("sort", sort), ("uniq", uniq), ("tr", tr),
  ("seq", seq), ("tee", tee), ("grep", grep), ("sed", sed), ("cut", cut), ("expr", expr),
  ("cmp", cmp), ("sha256sum", sha256sum), ("printenv", printenv), ("pwd", pwd), ("readlink", readlink),
  ("echo", echo), ("printf", printf), ("test", test), ("[", test), ("g++", compiler),
  ("c++", compiler), ("true", fun _ => finish 0), ("false", fun _ => finish 1),
  ("sleep", fun _ => finish 0), ("sync", fun _ => finish 0)]

end Tool

end QueryBuild.Host

import QueryBuild.Host.Program
import QueryBuild.Shell.Arithmetic
import QueryBuild.Shell.Field
import QueryBuild.Shell.Reader
import QueryBuild.Shell.Signal
import QueryBuild.Shell.State
/-!
# Running scripts

The commands of a script run one after the other: words are expanded, descriptors are redirected,
and then a function, a command of the shell or a program is called. Every step takes a bound, so
that a script which never ends is stopped.
-/

namespace QueryBuild.Shell

def ended (status : Nat) : Act Unit :=
  modify fun s => { s with status := status }

def writeTo (descriptor : Nat) (text : Octets) : Act Unit :=
  modify fun s => s.write descriptor text

def complain (text : String) : Act Unit := do
  let s ← get
  writeTo 2 (s.script ++ Octets.ofText (": " ++ toString s.line ++ ": " ++ text ++ "\n"))

/-- Says what is wrong and ends the shell. -/
def abandon {α : Type} (text : String) : Act α := do
  complain text
  ended 2
  throw .exiting

/-- Stops a shell that takes too long. -/
def exhausted {α : Type} : Act α := do
  ended 255
  throw .exiting

/-- Does something on which more depends than on its success. -/
def tested {α : Type} (act : Act α) : Act α := do
  let before := (← get).tested
  modify fun s => { s with tested := true }
  let result ← act
  modify fun s => { s with tested := before }
  return result

/-- Ends the shell if the last command failed and the shell is to end then. -/
def checkFailure : Act Unit := do
  let s ← get
  if s.stopOnFailure && !s.tested && s.status != 0 then throw .exiting

/-- Does something in a shell of its own. -/
def isolated (act : Act Unit) : Act Unit := do
  let before ← get
  -- Of the traps only those that ignore a signal are handed on.
  let (result, after) := act.run { before with traps := before.traps.filter (·.2.isEmpty) }
  set (before.resume after)
  match result with
  -- Nothing else that ends the inner shell ends this one.
  | .error (.killed signal) => throw (.killed signal)
  | _ => return ()

/-- The value of a parameter that is not a list. -/
def State.parameter? (s : State) (name : String) : Option Octets :=
  let number (n : Nat) : Option Octets := some (Octets.ofText (toString n))
  match name with
  | "#" => number s.arguments.length
  | "?" => number s.status
  | "$" => number s.process
  | "!" => none
  | "-" => some (if s.stopOnFailure then ['e'] else [])
  | "0" => some s.script
  | "LINENO" => number s.line
  | _ =>
    if name.toList.all Char.isDigit then s.arguments[Nat.ofDigitChars 10 name.toList 0 - 1]?
    else s.value? name

/-- The words for what a path leads to when a file is opened or a program is started. -/
def openReason (e : IoError) (missing : String) : String :=
  if e == .notFound || e == .notDirectory then missing else e.reason

def writeChannel (append : Bool) (target : Octets) : Act (Except String Channel) := do
  let s ← get
  let path : Path := ⟨Octets.toText target⟩
  match path.text with
  | "/dev/null" => return .ok .nothing
  | "/dev/stdout" => return .ok ((s.channels.lookup 1).getD .nothing)
  | "/dev/stderr" => return .ok ((s.channels.lookup 2).getD .nothing)
  | _ =>
    let refused (e : IoError) : Except String Channel :=
      .error ("cannot create " ++ path.text ++ ": " ++ openReason e "Directory nonexistent")
    match if append && s.files.isFile path then .ok s.files else s.files.write path .empty with
    | .error e => return refused e
    | .ok files =>
      set { s with files := files }
      match files.resolve true path with
      | .ok found => return .ok (.file found.location)
      | .error e => return refused e

/-- Redirects a descriptor; gives what is wrong if that is not possible. -/
def redirect (r : Redirection) (target : Octets) : Act (Except String Unit) := do
  let s ← get
  let shown := Octets.toText target
  match r.direction with
  | .read =>
    if shown == "/dev/null" then
      set (s.setChannel r.descriptor .nothing)
      return .ok ()
    else if shown == "/dev/stdin" then
      set (s.setChannel r.descriptor ((s.channels.lookup 0).getD .nothing))
      return .ok ()
    else
      match s.files.find ⟨shown⟩ with
      | .ok (_, .file contents _ _) =>
        set (s.openText r.descriptor (Octets.ofBytes contents))
        return .ok ()
      | .ok _ =>
        set (s.setChannel r.descriptor .nothing)
        return .ok ()
      | .error e => return .error ("cannot open " ++ shown ++ ": " ++ openReason e "No such file")
  | .write | .append =>
    match ← writeChannel (r.direction == .append) target with
    | .ok channel =>
      modify fun s => s.setChannel r.descriptor channel
      return .ok ()
    | .error e => return .error e
  | .copy =>
    if shown == "-" then
      set { s with channels := s.channels.filter fun c => c.1 != r.descriptor }
      return .ok ()
    else if !target.isEmpty && target.all Char.isDigit then
      match s.channels.lookup (Nat.ofDigitChars 10 target 0) with
      | some channel =>
        set (s.setChannel r.descriptor channel)
        return .ok ()
      | none => return .error (shown ++ ": Bad file descriptor")
    else return .error "Bad fd number"
  | .document _ =>
    set (s.openText r.descriptor target)
    return .ok ()

/-- The commands of a shell that end it when they go wrong. -/
def specialCommands : List String :=
  [":", ".", "break", "continue", "eval", "exec", "exit", "export", "readonly", "return", "set",
    "shift", "times", "trap", "unset"]

def shellCommands : List String :=
  specialCommands ++
    ["true", "false", "cd", "pwd", "echo", "printf", "test", "[", "read", "kill", "wait", "umask",
      "local", "command", "ulimit", "hash", "jobs", "alias", "unalias"]

/-- A name with the value that an argument gives it. -/
def splitAssignment (argument : Octets) : String × Option Octets :=
  let name := argument.takeWhile (· != '=')
  match argument.drop name.length with
  | _ :: value => (Octets.toText name, some value)
  | [] => (Octets.toText name, none)

def signal (number target : Nat) (onTrap : Octets → Act Unit) : Act Unit := do
  let s ← get
  if target != s.process then
    complain "kill: No such process\n"
    ended 1
  else
    match if number == 9 then none else s.traps.lookup number with
    | some [] => return ()
    | some action => onTrap action
    | none => if !Signal.isHarmless number then throw (.killed number)

def changeDirectory (arguments : List Octets) : Act Unit := do
  let s ← get
  let target := match arguments.filter fun a => a != ['-', '-'] && a != ['-', 'P'] with
    | [] => (s.value? "HOME").getD []
    | ['-'] :: _ => (s.value? "OLDPWD").getD []
    | a :: _ => a
  match s.files.find ⟨Octets.toText target⟩ with
  | .ok (location, .directory _) =>
    let old := Octets.ofText (Location.path s.files.workingDirectory).text
    let new := Octets.ofText (Location.path location).text
    let s := { s with files := { s.files with workingDirectory := location }, status := 0 }
    set ((s.exportValue "OLDPWD" old).exportValue "PWD" new)
  | _ =>
    if !target.isEmpty then
      complain ("cd: can't cd to " ++ Octets.toText target)
      ended 2

def readLine (arguments : List Octets) : Act Unit := do
  let s ← get
  let (options, names) := Host.Tool.options arguments
  let text := s.unread 0
  let line := text.takeWhile (· != '\n')
  let complete := line.length < text.length
  let line' := if Host.Tool.hasLetter 'r' options then line else line.filter (· != '\\')
  let isGap (c : Char) : Bool := s.separators.contains c
  let rec share (names : List Octets) (rest : Octets) (s : State) : State :=
    match names with
    | [] => s
    -- The last name takes all that is left.
    | [name] => s.setValue (Octets.toText name) (Text.dropTail isGap (rest.dropWhile isGap))
    | name :: names =>
      let rest := rest.dropWhile isGap
      let field := rest.takeWhile fun c => !isGap c
      share names ((rest.drop field.length).drop 1) (s.setValue (Octets.toText name) field)
  let s := s.setUnread 0 (text.drop (line.length + 1))
  set { share names line' s with status := if complete then 0 else 1 }

def setOptions : List Octets → Act Unit
  | [] => return ()
  | ['-', '-'] :: rest => modify fun s => { s with arguments := rest }
  | ('-' :: 'o' :: _) :: name :: rest => do
    option name true
    setOptions rest
  | ('+' :: 'o' :: _) :: name :: rest => do
    option name false
    setOptions rest
  | ('-' :: letters) :: rest => do
    letters.forM fun c => letter c true
    setOptions rest
  | ('+' :: letters) :: rest => do
    letters.forM fun c => letter c false
    setOptions rest
  | rest => modify fun s => { s with arguments := rest }
where
  letter (c : Char) (on : Bool) : Act Unit :=
    match c with
    | 'e' => modify fun s => { s with stopOnFailure := on }
    | 'u' => modify fun s => { s with stopOnUnset := on }
    | 'x' => modify fun s => { s with trace := on }
    | _ => return ()
  option (name : Octets) (on : Bool) : Act Unit :=
    match Octets.toText name with
    | "errexit" => letter 'e' on
    | "nounset" => letter 'u' on
    | "xtrace" => letter 'x' on
    | _ => return ()

def callTool (tool : Host.Tool) (name : Octets) (arguments : List Octets) : Act Unit := do
  let s ← get
  let request : Host.Request := ⟨name, arguments, s.unread 0, s.environment⟩
  let work : Host.Work := (tool request ⟨0, [], s.files, s.unread 0⟩).2
  let s := { s with files := work.files, status := work.status }
  let s := s.setUnread 0 work.unread
  set (work.written.foldl (fun s (descriptor, text) => s.write descriptor text) s)

/-- Marks variables so that programs see them, and gives them values. -/
def exportNames (arguments : List Octets) : Act Unit := do
  for argument in (Host.Tool.options arguments).2 do
    let (name, value) := splitAssignment argument
    modify fun s =>
      let value := value.getD ((s.value? name).getD [])
      { s with bindings := State.setEntry name ⟨value, true⟩ s.bindings }
  ended 0

/-- Hides variables until the function ends, and gives them values. -/
def localNames (arguments : List Octets) : Act Unit := do
  for argument in arguments do
    let (name, value) := splitAssignment argument
    modify fun s =>
      let s := { s with hidden := (name, s.bindings.lookup name) :: s.hidden }
      match value with
      | some value => s.setValue name value
      | none => s
  ended 0

def unsetNames (arguments : List Octets) : Act Unit := do
  let (options, names) := Host.Tool.options arguments
  for argument in names do
    let name := Octets.toText argument
    modify fun s =>
      if Host.Tool.hasLetter 'f' options then
        { s with functions := s.functions.filter fun f => f.1 != name }
      else { s with bindings := s.bindings.filter fun v => v.1 != name }
  ended 0

def setTraps (arguments : List Octets) : Act Unit := do
  match (Host.Tool.options arguments).2 with
  | [] => ended 0
  | [only] =>
    modify fun s =>
      { s with traps := s.traps.filter fun t => some t.1 != Signal.ofText? only }
    ended 0
  | action :: names =>
    for name in names do
      match Signal.ofText? name with
      | none =>
        complain ("trap: " ++ Octets.toText name ++ ": bad trap")
        ended 1
      | some number =>
        modify fun s =>
          if action == ['-'] then { s with traps := s.traps.filter fun t => t.1 != number }
          else { s with traps := State.setEntry number action s.traps }
    ended 0

/-- The signal and the processes that arguments of `kill` name. -/
def killTargets (arguments : List Octets) : Option Nat × List Octets :=
  match arguments with
  | ['-', 's'] :: name :: rest => (Signal.ofText? name, rest)
  | ['-', '-'] :: rest => (some 15, rest)
  | ('-' :: name@(_ :: _)) :: rest => (Signal.ofText? name, rest)
  | rest => (some 15, rest)

/-- Shows a command with its assignments before it runs, if the shell is asked to. -/
def showTrace (assignments : List (String × Octets)) (fields : List Octets) : Act Unit := do
  let shown := assignments.map fun (name, value) => Octets.ofText (name ++ "=") ++ value
  if (← get).trace && !(shown ++ fields).isEmpty then
    writeTo 2 (['+', ' '] ++ List.intercalate [' '] (shown ++ fields) ++ ['\n'])

def killUsage : String :=
  "kill: Usage: kill [-s sigspec | -signum | -sigspec] [pid | job]... or\nkill -l [exitstatus]"

def unknownSignal (arguments : List Octets) : String :=
  match arguments with
  | ['-', 's'] :: name :: _ => "invalid signal number or name: " ++ Octets.toText name
  | ('-' :: letter :: _) :: _ => "Illegal option -" ++ String.singleton letter
  | _ => "bad signal"

def digits? (text : Octets) : Option Nat :=
  if !text.isEmpty && text.all Char.isDigit then some (Nat.ofDigitChars 10 text 0) else none

def countOf (name : String) (arguments : List Octets) (standard : Nat) : Act Nat :=
  match arguments with
  | [] => return standard
  | a :: _ =>
    match digits? a with
    | some n => return n
    | none => abandon (name ++ ": Illegal number: " ++ Octets.toText a)

mutual

def expand : Nat → Word → Act (List Atom)
  | 0, _ => exhausted
  | _ + 1, [] => return []
  | fuel + 1, piece :: rest => do
    let first : List Atom ← match piece with
      | .bare c => pure [.char c false false]
      | .quoted c => pure [.char c true false]
      | .quotes => pure [.quotes]
      | .parameter name use inQuotes => expandParameter fuel name use inQuotes
      | .output script line inQuotes => do
        let text ← outputOf fuel script line
        -- The ends of lines at the very end are no part of the value.
        pure ((Text.dropTail (· == '\n') text).map fun c => .char c inQuotes !inQuotes)
      | .number pieces inQuotes => do
        let text := (Field.whole (← expand fuel pieces)).map Prod.fst
        let s ← get
        let value (name : String) : Int := ((Condition.number? ((s.value? name).getD [])).getD 0)
        match Arithmetic.evaluate value text with
        | .error e =>
          abandon ("arithmetic expression: " ++ e.text ++ ": \"" ++ Octets.toText text ++ "\"")
        | .ok (n, changes) =>
          for (name, n) in changes.reverse do
            modify fun s => s.setValue name (Octets.ofText (toString n))
          pure ((Octets.ofText (toString n)).map fun c => .char c inQuotes !inQuotes)
    return first ++ (← expand fuel rest)

/-- What a script writes. -/
def outputOf : Nat → List Char → Nat → Act Octets
  | 0, _, _ => exhausted
  | fuel + 1, script, line => do
    let before ← get
    let id := before.nextStream
    set { before with nextStream := id + 1 }
    isolated do
      modify fun s => s.setChannel 1 (.stream id)
      runText fuel script line
    let s ← get
    set { s with
      outputs := s.outputs.filter fun o => o.1 != id
      status := before.status
      outputStatus := s.status }
    return Octets.ofBytes ((s.outputs.lookup id).getD .empty)

/-- The value of a parameter and what is done with it. -/
def expandParameter : Nat → String → Use → Bool → Act (List Atom)
  | 0, _, _, _ => exhausted
  | fuel + 1, name, use, inQuotes => do
    let s ← get
    let atoms (text : Octets) : List Atom := text.map fun c => .char c inQuotes !inQuotes
    let several := name == "@" || name == "*"
    let all : List Atom :=
      if name == "*" && inQuotes then
        atoms (List.intercalate (s.separators.take 1) s.arguments)
      else if s.arguments.isEmpty then [.absence]
      else List.intercalate [.cut inQuotes] (s.arguments.map atoms)
    let value := if several then
        (if s.arguments.isEmpty then none else some (List.intercalate [' '] s.arguments))
      else s.parameter? name
    let given (blank : Bool) : Bool :=
      match value with
      | none => false
      | some v => !(blank && v.isEmpty)
    let own : List Atom := if several then all else atoms (value.getD [])
    match use with
    | .value =>
      if value.isNone && s.stopOnUnset && !several then
        abandon (name ++ ": parameter not set")
      else return own
    | .length =>
      let n := if several then s.arguments.length else (value.getD []).length
      return atoms (Octets.ofText (toString n))
    | .otherwise blank word => if given blank then return own else expand fuel word
    | .instead blank word => if given blank then expand fuel word else return []
    | .assign blank word =>
      if given blank then return own
      else
        let text := Field.text (Field.whole (← expand fuel word))
        modify fun s => s.setValue name text
        return atoms text
    | .require blank word =>
      if given blank then return own
      else
        let text := Field.text (Field.whole (← expand fuel word))
        let reason := if text.isEmpty then
            (if blank then "parameter not set or null" else "parameter not set")
          else Octets.toText text
        abandon (name ++ ": " ++ reason)
    | .cut side longest word =>
      let marks := Pattern.ofField (Field.whole (← expand fuel word))
      let text := value.getD []
      return atoms (match side with
        | .front => Pattern.cutFront longest marks text
        | .back => Pattern.cutBack longest marks text)

/-- The text of a word that is not cut into fields. -/
def expandText : Nat → Word → Act Octets
  | 0, _ => exhausted
  | fuel + 1, word => do
    return Field.text (Field.whole (← expand fuel word))

def expandFields : Nat → List Word → Act (List Octets)
  | 0, _ => exhausted
  | _ + 1, [] => return []
  | fuel + 1, word :: words => do
    let atoms ← expand fuel word
    let s ← get
    let home := (s.value? "HOME").map fun path => path.map fun c => Atom.char c true false
    let atoms := match atoms, home with
      | [.char '~' false false], some path => path
      | .char '~' false false :: .char '/' false false :: rest, some path =>
        path ++ .char '/' true false :: rest
      | _, _ => atoms
    let found := (Field.ofAtoms s.separators atoms).flatMap (Field.expand s.files)
    return found ++ (← expandFields fuel words)

/-- Applies redirections in order; gives what is wrong with the first one that fails. -/
def redirectAll : Nat → List Redirection → Act (Except String Unit)
  | 0, _ => exhausted
  | _ + 1, [] => return .ok ()
  | fuel + 1, r :: rest => do
    let word := match r.direction with
      | .document id => fun (s : State) => (s.documents.lookup id).getD []
      | _ => fun _ => r.target
    let target ← expandText fuel (word (← get))
    match ← redirect r target with
    | .error e => return .error e
    | .ok () => redirectAll fuel rest

/-- Does something with redirected descriptors, which are as before afterwards. -/
def redirected : Nat → List Redirection → Act Unit → Act Unit
  | 0, _, _ => exhausted
  | fuel + 1, rs, act => do
    if rs.isEmpty then act
    else
      let before := (← get).channels
      let restore : Act Unit := modify fun s => { s with channels := before }
      match ← redirectAll fuel rs with
      | .error e =>
        complain e
        restore
        ended 2
      | .ok () =>
        try act
        catch halt =>
          restore
          throw halt
        restore

def run : Nat → Command → Act Unit
  | 0, _ => exhausted
  | fuel + 1, command => do
    match command with
    | .simple line assignments words rs => call fuel line assignments words rs
    | .sequence commands => runAll fuel commands
    | .both first second =>
      tested (run fuel first)
      if (← get).status == 0 then run fuel second
    | .either first second =>
      tested (run fuel first)
      if (← get).status != 0 then run fuel second
    | .pipeline negated commands =>
      if negated then
        -- A failure that is asked for ends no shell.
        tested (runPiped fuel commands)
        modify fun s => { s with status := if s.status == 0 then 1 else 0 }
      else
        runPiped fuel commands
        checkFailure
    | .background inner =>
      isolated do
        modify fun s => s.setChannel 0 .nothing
        run fuel inner
      ended 0
    | .group body rs => redirected fuel rs (run fuel body)
    | .subshell body rs =>
      isolated (redirected fuel rs (run fuel body))
      checkFailure
    | .conditional test yes no rs =>
      redirected fuel rs do
        tested (run fuel test)
        if (← get).status == 0 then run fuel yes
        else match no with
          | some no => run fuel no
          | none => ended 0
    | .repeated negated test body rs =>
      redirected fuel rs (repeatBody fuel negated test body 0)
    | .each name words body rs =>
      let values ← match words with
        | some words => expandFields fuel words
        | none => pure (← get).arguments
      redirected fuel rs do
        ended 0
        eachBody fuel name body values
    | .choice word branches rs =>
      let subject ← expandText fuel word
      redirected fuel rs do
        ended 0
        chooseBranch fuel subject branches
    | .define name body =>
      modify fun s => { s with functions := State.setEntry name body s.functions, status := 0 }

def runAll : Nat → List Command → Act Unit
  | 0, _ => exhausted
  | _ + 1, [] => return ()
  | fuel + 1, command :: commands => do
    run fuel command
    runAll fuel commands

/-- Runs commands so that each one reads what the one before it wrote. -/
def runPiped : Nat → List Command → Act Unit
  | 0, _ => exhausted
  | _ + 1, [] => return ()
  | fuel + 1, [last] => isolated (run fuel last)
  | fuel + 1, command :: commands => do
    let id := (← get).nextStream
    modify fun s => { s with nextStream := id + 1 }
    isolated do
      modify fun s => s.setChannel 1 (.stream id)
      run fuel command
    let s ← get
    let text := Octets.ofBytes ((s.outputs.lookup id).getD .empty)
    let channel := s.channels.lookup 0
    set (s.openText 0 text)
    runPiped fuel commands
    modify fun s => s.setChannel 0 (channel.getD .nothing)

/-- Runs the body of a loop as long as its test says so; `status` is how the body ended last. -/
def repeatBody : Nat → Bool → Command → Command → Nat → Act Unit
  | 0, _, _, _, _ => exhausted
  | fuel + 1, negated, test, body, status => do
    let round : Act (Option Nat) := do
      tested (run fuel test)
      if ((← get).status == 0) == negated then return none
      else
        run fuel body
        return some (← get).status
    let next ← try round
      catch halt =>
        match halt with
        -- A break out of several loops goes on in the one around, with one less to leave.
        | .breaking n =>
          if n ≤ 1 then ended 0 *> pure none else throw (.breaking (n - 1))
        | .continuing n => if n ≤ 1 then pure (some (← get).status) else throw (.continuing (n - 1))
        | halt => throw halt
    match next with
    | none => ended status
    | some status => repeatBody fuel negated test body status

def eachBody : Nat → String → Command → List Octets → Act Unit
  | 0, _, _, _ => exhausted
  | _ + 1, _, _, [] => return ()
  | fuel + 1, name, body, value :: values => do
    modify fun s => s.setValue name value
    let goOn ← try do
        run fuel body
        pure true
      catch halt =>
        match halt with
        | .breaking n => if n ≤ 1 then pure false else throw (.breaking (n - 1))
        | .continuing n => if n ≤ 1 then pure true else throw (.continuing (n - 1))
        | halt => throw halt
    if goOn then eachBody fuel name body values

def chooseBranch : Nat → Octets → List (List Word × Command) → Act Unit
  | 0, _, _ => exhausted
  | _ + 1, _, [] => return ()
  | fuel + 1, subject, (patterns, body) :: branches => do
    if ← matchesAny fuel subject patterns then run fuel body
    else chooseBranch fuel subject branches

def matchesAny : Nat → Octets → List Word → Act Bool
  | 0, _, _ => exhausted
  | _ + 1, _, [] => return false
  | fuel + 1, subject, pattern :: patterns => do
    let marks := Pattern.ofField (Field.whole (← expand fuel pattern))
    if Pattern.fits marks subject then return true else matchesAny fuel subject patterns

def assignedValues : Nat → List (String × Word) → Act (List (String × Octets))
  | 0, _ => exhausted
  | _ + 1, [] => return []
  | fuel + 1, (name, word) :: rest => do
    let value ← expandText fuel word
    return (name, value) :: (← assignedValues fuel rest)

/-- Runs a simple command. -/
def call : Nat → Nat → List (String × Word) → List Word → List Redirection → Act Unit
  | 0, _, _, _, _ => exhausted
  | fuel + 1, line, assignments, words, rs => do
    modify fun s => { s with line := line, outputStatus := 0 }
    let fields ← expandFields fuel words
    match fields with
    | [] =>
      redirected fuel rs do
        let values ← assignedValues fuel assignments
        showTrace values []
        for (name, value) in values do
          modify fun s => s.setValue name value
        ended (← get).outputStatus
      checkFailure
    | name :: arguments =>
      let values ← assignedValues fuel assignments
      showTrace values fields
      let text := Octets.toText name
      let function := (← get).functions.lookup text
      let special := function.isNone && specialCommands.contains text
      -- What `exec` redirects stays so for the rest of the shell.
      if text == "exec" && special then
        match ← redirectAll fuel rs with
        | .error e => abandon e
        | .ok () =>
          match arguments with
          | [] => ended 0
          | name :: arguments =>
            program fuel "exec: " name arguments
            throw .exiting
      else
        let saved := (← get).bindings
        let outcome : Act Unit := do
          for (name, value) in values do
            modify fun s =>
              { s with bindings := State.setEntry name ⟨value, true⟩ s.bindings }
          match function with
          | some body => callFunction fuel body arguments
          | none =>
            if shellCommands.contains text then shellCommand fuel text arguments
            else program fuel "" name arguments
          -- What is assigned in front of a special command or a function outlasts the call.
          if !special && !values.isEmpty && function.isNone then
            let restored := values.map fun (name, _) => (name, saved.lookup name)
            modify fun s => { s with
              bindings := restored.foldl (fun all (name, old) =>
                match old with
                | some v => State.setEntry name v all
                | none => all.filter fun v => v.1 != name) s.bindings }
        redirected fuel rs outcome
        -- A special command that cannot be redirected ends the shell.
        if special && !rs.isEmpty && (← get).status == 2 then throw .exiting
        checkFailure

def callFunction : Nat → Command → List Octets → Act Unit
  | 0, _, _ => exhausted
  | fuel + 1, body, arguments => do
    let before ← get
    set { before with arguments := arguments, hidden := [] }
    let restore : Act Unit := modify fun s =>
      let bindings := s.hidden.foldl (fun all (name, old) =>
        match old with
        | some v => State.setEntry name v all
        | none => all.filter fun v => v.1 != name) s.bindings
      { s with arguments := before.arguments, hidden := before.hidden, bindings := bindings }
    try run fuel body
    catch halt =>
      restore
      match halt with
      | .returning => return ()
      | halt => throw halt
    restore

def shellCommand : Nat → String → List Octets → Act Unit
  | 0, _, _ => exhausted
  | fuel + 1, name, arguments => do
    let tool (tool : Host.Tool) : Act Unit := do
      let s ← get
      let shown := s.script ++ Octets.ofText (": " ++ toString s.line ++ ": " ++ name)
      callTool tool shown arguments
    match name with
    | ":" | "true" | "times" | "umask" | "ulimit" | "hash" | "jobs" | "wait" | "alias"
    | "unalias" => ended 0
    | "false" => ended 1
    | "exit" =>
      ended ((← countOf name arguments (← get).status) % 256)
      throw .exiting
    | "return" =>
      ended ((← countOf name arguments (← get).status) % 256)
      throw .returning
    | "break" => throw (.breaking (← countOf name arguments 1))
    | "continue" => throw (.continuing (← countOf name arguments 1))
    | "cd" => changeDirectory arguments
    | "pwd" => callTool Host.Tool.pwd name.toList []
    | "echo" =>
      writeTo 1 (Format.echo arguments)
      ended 0
    | "printf" =>
      if arguments.isEmpty then
        complain "printf: usage: printf format [arg ...]"
        ended 2
      else tool Host.Tool.printf
    | "test" => tool Host.Tool.test
    | "[" =>
      match arguments.reverse with
      | [']'] :: inner => do
        let s ← get
        let shown := s.script ++ Octets.ofText (": " ++ toString s.line ++ ": [")
        callTool Host.Tool.test shown inner.reverse
      | _ =>
        complain "[: missing ]"
        ended 2
    | "export" | "readonly" => exportNames arguments
    | "local" => localNames arguments
    | "unset" => unsetNames arguments
    | "set" =>
      setOptions arguments
      ended 0
    | "shift" =>
      let n ← countOf name arguments 1
      if n > (← get).arguments.length then abandon "shift: can't shift that many"
      else
        modify fun s => { s with arguments := s.arguments.drop n }
        ended 0
    | "eval" =>
      ended 0
      runText fuel (List.intercalate [' '] arguments) (← get).line
    | "." =>
      match arguments with
      | [] => ended 0
      | path :: _ =>
        match (← get).files.read ⟨Octets.toText path⟩ with
        | .ok contents =>
          let line := (← get).line
          try runText fuel (Octets.ofBytes contents) 1
          catch halt =>
            match halt with
            | .returning => pure ()
            | halt => throw halt
          modify fun s => { s with line := line }
        | .error e =>
          abandon (".: cannot open " ++ Octets.toText path ++ ": " ++ openReason e "No such file")
    | "read" => readLine arguments
    | "trap" => setTraps arguments
    | "kill" =>
      let (number, targets) := killTargets arguments
      match number, targets with
      | _, [] =>
        complain killUsage
        ended 2
      | none, _ =>
        complain ("kill: " ++ unknownSignal arguments)
        ended 2
      | some number, targets =>
        ended 0
        for target in targets do
          signal number ((digits? target).getD 0) fun action => runText fuel action 1
    | "command" =>
      match arguments with
      | ['-', 'v'] :: wanted :: _ =>
        let s ← get
        let text := Octets.toText wanted
        if shellCommands.contains text || (s.functions.lookup text).isSome then
          writeTo 1 (wanted ++ ['\n'])
          ended 0
        else
          match Host.Program.locate s.files ((s.value? "PATH").getD Host.Program.standardPath)
              wanted with
          | .ok path =>
            if (Host.Program.contentsAt s.files path).isOk then
              writeTo 1 (path ++ ['\n'])
              ended 0
            else ended 127
          | .error _ => ended 127
      | wanted :: rest =>
        let text := Octets.toText wanted
        if shellCommands.contains text then shellCommand fuel text rest
        else program fuel "" wanted rest
      | [] => ended 0
    | _ => ended 127

/-- Calls a program; `before` stands in front of its name in messages. -/
def program : Nat → String → Octets → List Octets → Act Unit
  | 0, _, _, _ => exhausted
  | fuel + 1, before, name, arguments => do
    let s ← get
    let shown := Octets.toText name
    let missing (e : IoError) : Act Unit := do
      complain (before ++ shown ++ ": " ++ openReason e "not found")
      ended (if e == .notFound || e == .notDirectory || e == .linkLoop then 127 else 126)
    match Host.Program.locate s.files ((s.value? "PATH").getD Host.Program.standardPath) name with
    | .error e => missing e
    | .ok path =>
      match ← execute fuel path (name :: arguments) with
      | .ok none => return ()
      | .ok (some signal) =>
        ended (128 + signal)
        -- Nothing is said about an interrupt or a closed pipe.
        if signal != 2 && signal != 13 then
          writeTo 2 (Octets.ofText (Signal.description signal ++ "\n"))
      | .error e =>
        -- A file that no interpreter is named for is a script.
        if e == .execFormat then
          match Host.Program.contentsAt s.files path with
          | .ok contents => do
            let _ ← shell fuel path arguments (some contents)
            return ()
          | .error e => missing e
        else missing e

/-- Executes the file at a path with some words, of which the first one is its name. Gives the
signal that ended it, if one did, or why it could not be started. -/
def execute : Nat → Octets → List Octets → Act (Except IoError (Option Nat))
  | 0, _, _ => exhausted
  | fuel + 1, path, words => do
    match Host.Program.resolve (← get).files Host.Program.depthLimit path words with
    | .error e => return .error e
    | .ok (name, words) =>
      let called := words.headD []
      let arguments := words.drop 1
      match name with
      | "sh" =>
        return .ok (← interpret fuel called arguments)
      | "env" =>
        environmentFor fuel called arguments
      | _ =>
        callTool ((Host.Tool.named.lookup name).getD fun _ => Host.Tool.finish 0) called arguments
        return .ok none

/-- Calls a program with other environment variables. -/
def environmentFor : Nat → Octets → List Octets → Act (Except IoError (Option Nat))
  | 0, _, _ => exhausted
  | fuel + 1, called, arguments => do
    match arguments with
    | [] =>
      callTool Host.Tool.printenv called []
      return .ok none
    | first :: rest =>
      let before ← get
      match splitAssignment first with
      | (name, some value) =>
        set { before with
          bindings := State.setEntry name ⟨value, true⟩ before.bindings }
        let result ← environmentFor fuel called rest
        modify fun s => { s with bindings := before.bindings }
        return result
      | (shown, none) =>
        let searched := (before.value? "PATH").getD Host.Program.standardPath
        let found ← match Host.Program.locate before.files searched first with
          | .ok path => execute fuel path arguments
          | .error e => pure (.error e)
        match found with
        | .ok ended => return .ok ended
        | .error e =>
          writeTo 2 (called ++ Octets.ofText (": '" ++ shown ++ "': " ++ e.reason ++ "\n"))
          ended (if e == .notFound then 127 else 126)
          return .ok none

/-- Runs a shell with the arguments of its call: a script in a file, in an argument, or in what can
be read. -/
def interpret : Nat → Octets → List Octets → Act (Option Nat)
  | 0, _, _ => exhausted
  | fuel + 1, called, arguments => do
    match arguments with
    | ['-', 'c'] :: script :: rest =>
      shell fuel (rest.headD called) (rest.drop 1) (some script)
    | ('-' :: c :: letters) :: rest =>
      if letters.contains 'c' then
        interpret fuel called (['-', 'c'] :: rest)
      else
        let before ← get
        setOptions [('-' :: c :: letters)]
        let result ← interpret fuel called rest
        modify fun s => { s with
          stopOnFailure := before.stopOnFailure
          stopOnUnset := before.stopOnUnset
          trace := before.trace }
        return result
    | [] => shell fuel called [] none
    | path :: rest =>
      match (← get).files.read ⟨Octets.toText path⟩ with
      | .ok contents => shell fuel path rest (some (Octets.ofBytes contents))
      | .error e =>
        writeTo 2 (called ++ Octets.ofText
          (": 0: cannot open " ++ Octets.toText path ++ ": " ++ openReason e "No such file" ++ "\n"))
        ended 2
        return none

/-- Runs a script in a new process, which knows its directory. Gives the signal that ended it, if
one did. -/
def shell : Nat → Octets → List Octets → Option Octets → Act (Option Nat)
  | 0, _, _, _ => exhausted
  | fuel + 1, name, arguments, script => do
    let before ← get
    let text := script.getD (before.unread 0)
    let before := if script.isSome then before else before.setUnread 0 []
    let start : State := { before with
      bindings := (before.bindings.filter fun v => v.2.exported)
      functions := []
      script := name
      arguments := arguments
      status := 0
      line := 1
      process := before.nextProcess
      nextProcess := before.nextProcess + 1
      tested := false
      traps := []
      hidden := [] }
    let start := start.exportValue "PWD"
      (Octets.ofText (Location.path start.files.workingDirectory).text)
    let body : Act Unit := do
      try runText fuel text 1
      catch halt =>
        match halt with
        | .killed signal => throw (.killed signal)
        | _ => pure ()
      -- However the script ended, unless by a signal, the action for its end is done.
      match (← get).traps.lookup 0 with
      | some action =>
        let status := (← get).status
        try do
          runText fuel action 1
          ended status
        catch halt =>
          match halt with
          | .killed signal => throw (.killed signal)
          | _ => pure ()
      | none => pure ()
    let (result, after) := body.run start
    set (before.resume after)
    match result with
    | .error (.killed signal) => return some signal
    | _ => return none

/-- Runs a script in the running shell; a part that cannot be read ends the shell. -/
def runText : Nat → List Char → Nat → Act Unit
  | 0, _, _ => exhausted
  | fuel + 1, text, line => do
    let s ← get
    let script := Script.ofText text line s.nextDocument
    set { s with
      documents := script.documents ++ s.documents
      nextDocument := s.nextDocument + script.documents.length }
    runAll fuel script.commands
    -- The commands in front of the misread part have run by now.
    match script.misreading with
    | none => return ()
    | some misreading =>
      modify fun s => { s with line := misreading.line }
      abandon misreading.reason

end

end QueryBuild.Shell

import QueryBuild.CommandLine.Refusal
import QueryBuild.Text.Similar
/-!
# Reading command lines

The arguments of one command are read from left to right. An argument that begins with a dash is an
option, unless it is a lone dash or stands behind a lone double dash. The value of an option or
operand is looked at when the next one comes, so of two faults the one that is noticed first wins.
-/

namespace QueryBuild.CommandLine

open Text (similarWords)

/-- Why reading ends before the end. -/
inductive Stop where
  | help (form : CommandForm)
  | version
  /-- Nothing at all was said to a command. -/
  | silence (form : CommandForm)
  | refused (refusal : Refusal)

structure Given where
  /-- What was looked at, in its order; a flag has the empty value. -/
  values : List (Slot × String)
  /-- What was given last, with its value unless that is still to come. -/
  last : Option (Slot × Option String)
  full : Bool

namespace Given

def nothing : Given :=
  ⟨[], none, false⟩

def value? (g : Given) (slot : Slot) : Option String :=
  g.values.lookup slot

def has (g : Given) (slot : Slot) : Bool :=
  (g.value? slot).isSome

/-- Everything that was looked at. -/
def slots (g : Given) : List Slot :=
  g.values.map Prod.fst

def awaitsValue (g : Given) : Bool :=
  match g.last with
  | some (_, none) => true
  | _ => false

/-- Takes a value down. Nothing may be given twice, and most values may not be empty. -/
def take (form : CommandForm) (g : Given) (slot : Slot) (value : String) : Given × Option Refusal :=
  if g.has slot then
    ({ g with values := g.values.filter fun known => known.1 != slot },
      some ⟨.repeated slot, [], some (form.usage []), true⟩)
  else
    ({ g with values := g.values ++ [(slot, value)] },
      if value.isEmpty && !slot.allowsEmpty then some ⟨.missingValue slot, [], none, true⟩
      else none)

def settle (form : CommandForm) (g : Given) : Given × Option Refusal :=
  let rest := { g with last := none }
  match g.last with
  | none => (rest, none)
  | some (slot, none) => (rest, some ⟨.missingValue slot, [], none, true⟩)
  | some (slot, some value) => take form rest slot value

end Given

def orRefuse (step : Given × Option Refusal) : Except Stop Given :=
  match step with
  | (g, none) => .ok g
  | (_, some refusal) => .error (.refused refusal)

def refuse (fault : Fault) (tips : List Tip) (form : CommandForm) (used : List Slot) : Stop :=
  .refused ⟨fault, tips, some (form.usage used), true⟩

/-- A word that looks like an option could be meant as an operand. -/
def operandTips (form : CommandForm) (word : String) : List Tip :=
  if form.operand.isSome then [.asValue word] else []

/-- The option of another command that is similar to a name, if that command is named next. -/
def foreignTips (others : List (String × CommandForm)) (name : String) (rest : List String) :
    List Tip :=
  let found := others.filterMap fun (command, form) => do
    let similar ← (similarWords name (form.options.map OptionForm.long)).getLast?
    let place ← rest.idxOf? command
    return (place, Tip.optionOfCommand command similar)
  let first := found.foldl (fun first candidate => match first with
    | none => some candidate
    | some known => if candidate.1 < known.1 then some candidate else some known) none
  (first.map Prod.snd).toList

/-- Refuses an unknown long option; what was given last is looked at, whatever comes of it. -/
def refuseLong (form : CommandForm) (others : List (String × CommandForm)) (g : Given)
    (name : String) (rest : List String) : Stop :=
  let word := "--" ++ name
  let used := (g.settle form).1.slots
  match (similarWords name (form.options.map OptionForm.long)).getLast? with
  | some similar =>
    let meant := ((form.long? similar).map Slot.option).toList
    refuse (.unexpected word) [.similarOption similar] form
      (used ++ meant.filter fun slot => !used.contains slot)
  | none =>
    match foreignTips others name rest with
    | [] => refuse (.unexpected word) (operandTips form word) form used
    | tips => refuse (.unexpected word) tips form used

/-- Reads an option with the value that is attached to it, if there is one. -/
def readOption (form : CommandForm) (g : Given) (o : OptionForm) (attached : Option String) :
    Except Stop Given := do
  let settled ← orRefuse (g.settle form)
  match o.kind, attached with
  | .help, _ => throw (.help form)
  | .version, _ => throw .version
  | .flag, _ => orRefuse (settled.take form (.option o) "")
  | .value _ _, some value => orRefuse (settled.take form (.option o) value)
  | .value _ _, none => return { settled with last := some (.option o, none) }

def readLong (form : CommandForm) (others : List (String × CommandForm)) (g : Given)
    (name : String) (attached : Option String) (rest : List String) : Except Stop Given :=
  match form.long? name with
  | none => .error (refuseLong form others g name rest)
  | some o =>
    match o.kind, attached with
    | .value _ _, _ => readOption form g o attached
    -- A flag takes no value, but the usage shows it as given.
    | _, some value =>
      let slot := Slot.option o
      .error (refuse (.excessValue value slot) [] form
        (g.slots.filter (· != slot) ++ [slot]))
    | _, none => readOption form g o none

/-- Reads short options that share a dash; what follows one with a value is the value. -/
def readShort (form : CommandForm) (g : Given) : List Char → Except Stop Given
  | [] => .ok g
  | c :: rest =>
    match form.short? c with
    | none =>
      let word := "-" ++ String.singleton c
      .error (refuse (.unexpected word) (operandTips form word) form [])
    | some o =>
      match o.kind with
      | .value _ _ =>
        let attached := match rest with
          | [] => none
          | '=' :: value => some (String.ofList value)
          | value => some (String.ofList value)
        readOption form g o attached
      | _ => do
        let g ← readOption form g o none
        readShort form g rest

def refuseExcess (form : CommandForm) (ended : Bool) (word : String) : Stop :=
  if ended && form.commandNames.contains word then
    refuse (.unexpected word) [.withoutDashes word] form []
  else if form.commands.isEmpty then refuse (.unexpected word) [] form []
  else
    match similarWords word form.commandNames with
    | [] => refuse (.unknownCommand word) [] form []
    | similar => refuse (.unknownCommand word) [.similarCommands similar] form []

def readOperand (form : CommandForm) (ended : Bool) (g : Given) (word : String) :
    Except Stop Given :=
  match form.operand, g.full with
  | some operand, false => do
    let settled ← orRefuse (g.settle form)
    return ⟨settled.values, some (.operand operand, some word), true⟩
  | _, _ => .error (refuseExcess form ended word)

/-- Gives the option that awaits one its value. -/
def Given.answer (g : Given) (value : String) : Given :=
  { g with last := g.last.map fun (slot, _) => (slot, some value) }

/-- A further command with the arguments behind it. -/
abbrev Branch := Option (String × List String)

/-- Reads arguments up to a further command; options have ended if `ended` is set. -/
def readArguments (form : CommandForm) (others : List (String × CommandForm)) (ended : Bool)
    (g : Given) : List String → Except Stop (Given × Branch)
  | [] => .ok (g, none)
  | word :: rest =>
    if ended then do
      readArguments form others ended (← readOperand form ended g word) rest
    -- Where a value is awaited, the name of a command is that value.
    else if !g.awaitsValue && form.commandNames.contains word then .ok (g, some (word, rest))
    else
      match word.toList with
      | ['-', '-'] => readArguments form others true g rest
      | '-' :: '-' :: long => do
        let name := long.takeWhile (· != '=')
        let attached := match long.dropWhile (· != '=') with
          | [] => none
          | _ :: value => some (String.ofList value)
        readArguments form others ended
          (← readLong form others g (String.ofList name) attached rest) rest
      | '-' :: c :: short => do
        readArguments form others ended (← readShort form g (c :: short)) rest
      | _ =>
        if g.awaitsValue then readArguments form others ended (g.answer word) rest
        else do
          readArguments form others ended (← readOperand form ended g word) rest

/-- Looks at what was given last and for what is missing. -/
def finish (form : CommandForm) (g : Given) : Except Stop Given := do
  let g ← orRefuse (g.settle form)
  match form.operand with
  | none => return g
  | some operand =>
    let slot := Slot.operand operand
    if g.has slot then return g
    else throw (refuse (.missingOperand operand) [] form (g.slots ++ [slot]))

def finishWithout {α : Type} (form : CommandForm) (g : Given) : Except Stop α := do
  let g ← orRefuse (g.settle form)
  if g.values.isEmpty then throw (.silence form)
  else throw (refuse (.noCommand form.words form.commandNames) [] form [])

end QueryBuild.CommandLine

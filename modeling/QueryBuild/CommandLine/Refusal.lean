import QueryBuild.CommandLine.Form
/-!
# Refused command lines

Why a command line is not taken, and what might have been meant.
-/

namespace QueryBuild.CommandLine

inductive Fault where
  | unexpected (word : String)
  | unknownCommand (word : String)
  | noCommand (program : String) (commands : List String)
  | missingOperand (operand : OperandForm)
  | missingValue (slot : Slot)
  | repeated (slot : Slot)
  | excessValue (value : String) (slot : Slot)
deriving DecidableEq, Inhabited

inductive Tip where
  | similarOption (name : String)
  | optionOfCommand (command name : String)
  /-- A value that looks like an option. -/
  | asValue (word : String)
  | similarCommands (names : List String)
  /-- A command behind the end of the options. -/
  | withoutDashes (word : String)
deriving DecidableEq, Inhabited

structure Refusal where
  fault : Fault
  tips : List Tip
  usage : Option String
  /-- Whether help can be asked for at the place of the fault. -/
  helpful : Bool
deriving DecidableEq, Inhabited

def inQuotes (word : String) : String :=
  "'" ++ word ++ "'"

def Fault.text : Fault → String
  | unexpected word => "unexpected argument " ++ inQuotes word ++ " found"
  | unknownCommand word => "unrecognized subcommand " ++ inQuotes word
  | noCommand program commands =>
    inQuotes program ++ " requires a subcommand but one was not provided\n  [subcommands: " ++
      ", ".intercalate commands ++ "]"
  | missingOperand operand =>
    "the following required arguments were not provided:\n  " ++ operand.text
  | missingValue slot =>
    "a value is required for " ++ inQuotes slot.text ++ " but none was supplied"
  | repeated slot => "the argument " ++ inQuotes slot.text ++ " cannot be used multiple times"
  | excessValue value slot =>
    "unexpected value " ++ inQuotes value ++ " for " ++ inQuotes slot.text ++
      " found; no more were expected"

def Tip.text : Tip → String
  | similarOption name => "a similar argument exists: " ++ inQuotes ("--" ++ name)
  | optionOfCommand command name => inQuotes (command ++ " --" ++ name) ++ " exists"
  | asValue word =>
    "to pass " ++ inQuotes word ++ " as a value, use " ++ inQuotes ("-- " ++ word)
  | similarCommands [name] => "a similar subcommand exists: " ++ inQuotes name
  | similarCommands names =>
    "some similar subcommands exist: " ++ ", ".intercalate (names.map inQuotes)
  | withoutDashes word =>
    "subcommand " ++ inQuotes word ++ " exists; to use it, remove the '--' before it"

def Refusal.text (r : Refusal) : String :=
  "error: " ++ r.fault.text ++
    (if r.tips.isEmpty then "" else "\n") ++
    String.join (r.tips.map fun tip => "\n  tip: " ++ tip.text) ++
    (match r.usage with
      | some usage => "\n\n" ++ usage
      | none => "") ++
    (if r.helpful then "\n\nFor more information, try '--help'.\n" else "\n")

end QueryBuild.CommandLine

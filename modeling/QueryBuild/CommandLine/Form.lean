/-!
# Forms of command lines

What may be said on a command line: the options and the operand of each command, and how usage and
help show them.
-/

namespace QueryBuild.CommandLine

inductive OptionKind where
  | flag
  /-- It takes a value with a name; `bare` says whether the value may be empty. -/
  | value (name : String) (bare : Bool)
  | help
  | version
deriving DecidableEq, Inhabited

structure OptionForm where
  long : String
  short : Option Char
  kind : OptionKind
  about : String
deriving DecidableEq, Inhabited

/-- An argument without a name. -/
structure OperandForm where
  name : String
  /-- One argument has to be given; otherwise any number of them may be. -/
  required : Bool
  about : String
deriving DecidableEq, Inhabited

inductive Slot where
  | option (form : OptionForm)
  | operand (form : OperandForm)
deriving DecidableEq, Inhabited

structure CommandForm where
  /-- The words that lead to the command. -/
  words : String
  about : String
  own : List OptionForm
  shared : List OptionForm
  /-- The options that ask about the command. -/
  closing : List OptionForm
  operand : Option OperandForm
  /-- The names of further commands and what they are about. -/
  commands : List (String × String)
deriving Inhabited

namespace OptionForm

/-- The option with its value, as usage shows it. -/
def text (o : OptionForm) : String :=
  match o.kind with
  | .value name _ => "--" ++ o.long ++ " <" ++ name ++ ">"
  | _ => "--" ++ o.long

/-- The option with both of its names, as help shows it. -/
def label (o : OptionForm) : String :=
  match o.short with
  | some c => "-" ++ String.singleton c ++ ", " ++ o.text
  | none => "    " ++ o.text

end OptionForm

def OperandForm.text (o : OperandForm) : String :=
  if o.required then "<" ++ o.name ++ ">" else "[" ++ o.name ++ "]..."

namespace Slot

def text : Slot → String
  | option o => o.text
  | operand o => o.text

def allowsEmpty : Slot → Bool
  | option ⟨_, _, .value _ bare, _⟩ => bare
  | option _ => true
  | operand _ => false

def isOption : Slot → Bool
  | option _ => true
  | operand _ => false

end Slot

namespace CommandForm

def options (c : CommandForm) : List OptionForm :=
  c.own ++ c.shared ++ c.closing

/-- The options in the order in which help lists them; a command's own options stand behind the
first shared one. -/
def listed (c : CommandForm) : List OptionForm :=
  c.shared.take 1 ++ c.own ++ c.shared.drop 1 ++ c.closing

def long? (c : CommandForm) (name : String) : Option OptionForm :=
  c.options.find? fun o => o.long == name

def short? (c : CommandForm) (name : Char) : Option OptionForm :=
  c.options.find? fun o => o.short == some name

def commandNames (c : CommandForm) : List String :=
  c.commands.map Prod.fst

/-- The usage of a command, with every option that was used, or with a word for all of them. -/
def usage (c : CommandForm) (used : List Slot) : String :=
  let options :=
    if used.isEmpty then if c.options.isEmpty then [] else ["[OPTIONS]"]
    else (used.filter Slot.isOption).map Slot.text
  let command := if c.commands.isEmpty then [] else ["<COMMAND>"]
  "Usage: " ++
    " ".intercalate (c.words :: options ++ (c.operand.map OperandForm.text).toList ++ command)

/-- Rows of two columns; the second one starts two blanks behind the longest first one. -/
def table (rows : List (String × String)) : String :=
  let width := (rows.map fun row => row.1.length).foldl max 0
  String.join (rows.map fun (left, right) =>
    "  " ++ left ++ String.ofList (List.replicate (width + 2 - left.length) ' ') ++ right ++ "\n")

/-- A table under a title; nothing if it has no rows. -/
def titled (title : String) (rows : List (String × String)) : String :=
  if rows.isEmpty then "" else "\n" ++ title ++ ":\n" ++ table rows

def help (c : CommandForm) : String :=
  c.about ++ "\n\n" ++ c.usage [] ++ "\n" ++
    titled "Commands" c.commands ++
    titled "Arguments" (c.operand.map fun o => (o.text, o.about)).toList ++
    titled "Options" (c.listed.map fun o => (o.label, o.about))

end CommandForm

end QueryBuild.CommandLine

import QueryBuild.Text.Blank
import QueryBuild.Text.Numeral
/-!
# Log filters

Which messages are logged. A filter is a list of rules with commas between them: a level for all
messages, a target with a level, or a target alone, from which everything is logged. Of the rules
that concern a message the one with the longest target decides.
-/

namespace QueryBuild.CommandLine

/-- How much is logged, from nothing to everything. -/
inductive LogLevel where
  | off
  | error
  | warn
  | info
  | debug
  | trace
deriving DecidableEq, Inhabited

namespace LogLevel

def rank : LogLevel → Nat
  | off => 0
  | error => 1
  | warn => 2
  | info => 3
  | debug => 4
  | trace => 5

def text : LogLevel → String
  | off => "off"
  | error => "error"
  | warn => "warn"
  | info => "info"
  | debug => "debug"
  | trace => "trace"

def all : List LogLevel :=
  [off, error, warn, info, debug, trace]

/-- The number that digits with an optional plus sign in front stand for. -/
def number? (cs : List Char) : Option Nat :=
  let digits := match cs with
    | '+' :: rest => rest
    | _ => cs
  if digits.isEmpty || !digits.all Char.isDigit then none
  else some (digits.foldl (fun n c => n * 10 + (c.toNat - '0'.toNat)) 0)

/-- The level with a word, in letters of either case, or with a number. -/
def ofChars? (cs : List Char) : Option LogLevel :=
  all.find? fun level =>
    level.text.toList == cs.map Char.toLower || number? cs == some level.rank

end LogLevel

/-- What is logged from which targets. -/
inductive LogRule where
  | everywhere (level : LogLevel)
  /-- A level for the targets that begin in some way. -/
  | within (target : List Char) (level : LogLevel)
  /-- A rule for messages of a kind that does not occur. -/
  | elsewhere
deriving DecidableEq, Inhabited

abbrev LogFilter := List LogRule

namespace LogFilter

def upTo (level : LogLevel) : LogFilter :=
  [.everywhere level]

/-- The level behind an equals sign; without one everything is logged. -/
def levelOf (cs : List Char) : Option LogLevel :=
  if cs.isEmpty then some .trace else LogLevel.ofChars? cs

def wordRule (cs : List Char) : LogRule :=
  match LogLevel.ofChars? cs with
  | some level => .everywhere level
  | none => .within cs .trace

def startsRule (c : Char) : Bool :=
  c == '-' || c == ':' || c == '_' || Text.isLetterOrNumeral c

/-- Whether what follows an opening bracket closes it and goes on with a level or nothing. -/
def closes (cs : List Char) : Bool :=
  match cs.dropWhile (· != ']') with
  | [_] => true
  | _ :: '=' :: level => (levelOf level).isSome
  | _ => false

/-- Reads one rule; the places of its parts are counted without the white space around it. -/
def readRule (cs : List Char) : Option LogRule :=
  let trimmed := Text.dropTail Text.isBlank (cs.dropWhile Text.isBlank)
  match trimmed with
  | [] => none
  | c :: _ =>
    if c == '[' then if closes trimmed then some .elsewhere else none
    else if !startsRule c then none
    else
      let target := trimmed.takeWhile fun c => c != '=' && c != '['
      match trimmed.drop target.length with
      | [] => some (wordRule cs)
      | '=' :: _ =>
        (levelOf (cs.drop (target.length + 1))).map (.within (cs.take target.length) ·)
      | rest => if closes rest then some .elsewhere else none

/-- Reads a filter; one without rules takes errors only. -/
def ofText? (s : String) : Option LogFilter :=
  let pieces := (Text.splitOn (· == ',') s.toList).filter (· != [])
  if pieces.isEmpty then some (upTo .error) else pieces.mapM readRule

def fit (target : List Char) : LogRule → Option (Nat × LogLevel)
  | .everywhere level => some (0, level)
  | .within start level => if start.isPrefixOf target then some (start.length + 1, level) else none
  | .elsewhere => none

/-- The level for a target: that of the best rule, and of equally good ones that of the last. -/
def level (filter : LogFilter) (target : String) : LogLevel :=
  let best := (filter.filterMap (fit target.toList)).foldl (fun best rule =>
    match best with
    | some known => if rule.1 < known.1 then some known else some rule
    | none => some rule) none
  (best.map Prod.snd).getD .off

def allows (filter : LogFilter) (target : String) (level : LogLevel) : Bool :=
  level.rank ≤ (filter.level target).rank

end LogFilter

end QueryBuild.CommandLine

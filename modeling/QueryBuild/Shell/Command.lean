/-!
# Commands of a shell

What a script says: words, made of literal characters and of pieces that are replaced when the
command runs, and commands, made of words, of redirections and of other commands.
-/

namespace QueryBuild.Shell

/-- Which end of a value a pattern is cut from. -/
inductive Side where
  | front
  | back
deriving DecidableEq, Inhabited

mutual

inductive Piece where
  /-- A character that may separate fields or be part of a pattern. -/
  | bare (c : Char)
  /-- A character that stands for itself. -/
  | quoted (c : Char)
  | quotes
  /-- The value of a parameter; whether it stands in quotes. -/
  | parameter (name : String) (use : Use) (inQuotes : Bool)
  /-- The output of a script. -/
  | output (script : List Char) (line : Nat) (inQuotes : Bool)
  /-- The value of an arithmetic expression. -/
  | number (pieces : List Piece) (inQuotes : Bool)

/-- What is done with the value of a parameter. `blank` says whether an empty value counts as
none. -/
inductive Use where
  | value
  | length
  /-- Something else instead of no value. -/
  | otherwise (blank : Bool) (word : List Piece)
  /-- As before, and the parameter gets that value. -/
  | assign (blank : Bool) (word : List Piece)
  | require (blank : Bool) (word : List Piece)
  /-- Something else instead of the value. -/
  | instead (blank : Bool) (word : List Piece)
  | cut (side : Side) (longest : Bool) (word : List Piece)

end

instance : Inhabited Piece := ⟨.quotes⟩

abbrev Word := List Piece

/-- What a redirection does with a descriptor. -/
inductive Direction where
  | read
  | write
  | append
  /-- Makes the descriptor a copy of another one. -/
  | copy
  /-- Reads a text of the script. -/
  | document (id : Nat)
deriving DecidableEq, Inhabited

structure Redirection where
  descriptor : Nat
  direction : Direction
  target : Word
deriving Inhabited

inductive Command where
  /-- Assignments, and the words of a call. -/
  | simple (line : Nat) (assignments : List (String × Word)) (words : List Word)
      (redirections : List Redirection)
  | pipeline (negated : Bool) (commands : List Command)
  /-- The second one runs if the first one succeeds. -/
  | both (first second : Command)
  /-- The second one runs if the first one fails. -/
  | either (first second : Command)
  | sequence (commands : List Command)
  | background (command : Command)
  | group (body : Command) (redirections : List Redirection)
  /-- A group whose changes to the shell are lost. -/
  | subshell (body : Command) (redirections : List Redirection)
  | conditional (test yes : Command) (no : Option Command) (redirections : List Redirection)
  /-- Runs the body while the test succeeds, or until it does. -/
  | repeated (negated : Bool) (test body : Command) (redirections : List Redirection)
  /-- Runs the body for every field of some words, or for every argument. -/
  | each (name : String) (words : Option (List Word)) (body : Command)
      (redirections : List Redirection)
  /-- Runs the first body of which a pattern matches the word. -/
  | choice (word : Word) (branches : List (List Word × Command))
      (redirections : List Redirection)
  | define (name : String) (body : Command)

instance : Inhabited Command := ⟨.sequence []⟩

structure Misreading where
  line : Nat
  reason : String
deriving Inhabited

/-- A script as far as it can be read. -/
structure Script where
  commands : List Command
  /-- The texts that redirections of the script read. -/
  documents : List (Nat × Word)
  misreading : Option Misreading
deriving Inhabited

end QueryBuild.Shell

import QueryBuild.Build.Event
import QueryBuild.CommandLine.LogFilter
/-!
# Warnings

Messages about what went well but looks odd. They are logged, each one with the part of the program
that it comes from.
-/

namespace QueryBuild.CommandLine

inductive Warning where
  /-- A source was left out as its name is no text. -/
  | skippedSource (path : Path)
  /-- The compiler said something although it succeeded. -/
  | compilerOutput (program : Path) (stderr : String)
deriving DecidableEq, Inhabited

namespace Warning

/-- The part of the program that a warning comes from. -/
def target : Warning → String
  | skippedSource _ => "sqlbuild_graph::discovery"
  | compilerOutput _ _ => "sqlbuild_engine::toolchain"

/-- A character as a log shows it: those that a terminal might obey are written by number. -/
def showChar (c : Char) : List Char :=
  match c with
  | '\x1b' => "\\x1b".toList
  | '\x07' => "\\x07".toList
  | '\x08' => "\\x08".toList
  | '\x0c' => "\\x0c".toList
  | '\x7f' => "\\x7f".toList
  | c =>
    if 0x80 ≤ c.toNat && c.toNat ≤ 0x9F then
      "\\u\x7b".toList ++ Nat.toDigits 16 c.toNat ++ ['\x7d']
    else [c]

def message : Warning → String
  | skippedSource _ => "skipping SQL file with a non UTF-8 name"
  | compilerOutput _ stderr => "compiler output:\n" ++ Text.trimEnd stderr

def field : Warning → String
  | skippedSource path => "path=" ++ path.text
  | compilerOutput program _ => "program=" ++ program.text

def text (timestamp : String) (w : Warning) : String :=
  timestamp ++ "  WARN " ++ w.target ++ ": " ++
    String.ofList (w.message.toList.flatMap showChar) ++ " " ++ w.field ++ "\n"

def log (filter : LogFilter) (timestamp : String) (warnings : List Warning) : String :=
  String.join ((warnings.filter fun w => filter.allows w.target .warn).map (text timestamp))

def ofEvent? : Event → Option Warning
  | .called (.compiler program _) (.ok output) _ =>
    if output.success && !Text.allBlank output.stderr then
      some (.compilerOutput program output.stderr)
    else none
  | _ => none

end Warning

end QueryBuild.CommandLine

import QueryBuild.Text.Letter
/-!
# SQL dialects

The dialects in which units may be written and the features in which they differ.
-/

namespace QueryBuild

inductive Dialect where
  | duckdb
  | postgres
  | ansi
deriving DecidableEq, Inhabited

namespace Dialect

def key : Dialect → String
  | duckdb => "duckdb"
  | postgres => "postgres"
  | ansi => "ansi"

def label : Dialect → String
  | duckdb => "DuckDb"
  | postgres => "Postgres"
  | ansi => "Ansi"

/-- Every dialect, the default one first. -/
def all : List Dialect :=
  [duckdb, postgres, ansi]

def ofKey? (s : String) : Option Dialect :=
  all.find? fun dialect => dialect.key == s

theorem ofKey?_key (dialect : Dialect) : ofKey? dialect.key = some dialect := by
  cases dialect <;> rfl

def startsIdentifier (d : Dialect) (c : Char) : Bool :=
  Text.isLetter c || c == '_' || (d == ansi && (c == '#' || c == '@'))

def continuesIdentifier (d : Dialect) (c : Char) : Bool :=
  Text.isLetter c || c.isDigit || c == '$' || c == '_' || (d == ansi && (c == '#' || c == '@'))

def quotesIdentifier (d : Dialect) (c : Char) : Bool :=
  c == '"' || (d != postgres && c == '\x60')

/-- Characters that extend an operator beyond the known ones. -/
def extendsOperator (d : Dialect) (c : Char) : Bool :=
  d == postgres && "+-*/<>=~!@#%^&|\x60?".toList.contains c

/-- A comma may stand at the end of a list. -/
def trailingCommas (d : Dialect) : Bool := d == duckdb

/-- Strings of bytes, `B'…'`. -/
def byteStrings (d : Dialect) : Bool := d != duckdb

/-- Strings of raw characters, `R'…'`. -/
def rawStrings (d : Dialect) : Bool := d == ansi

/-- Strings with Unicode escapes, `U&'…'`. -/
def unicodeStrings (d : Dialect) : Bool := d != duckdb

/-- Strings with C escapes, `E'…'`, as values. -/
def escapedStrings (d : Dialect) : Bool := d != duckdb

/-- Division of whole numbers, `//`. -/
def integerDivision (d : Dialect) : Bool := d != postgres

def aggregateFilter (d : Dialect) : Bool := d != ansi

def braceStructures (d : Dialect) : Bool := d != postgres

def equalsNamesArgument (d : Dialect) : Bool := d == duckdb

def assignNamesArgument (d : Dialect) : Bool := d != postgres

/-- Extensions can be installed and databases detached. -/
def extensionStatements (d : Dialect) : Bool := d != postgres

def channelStatements (d : Dialect) : Bool := d == postgres

def commentStatements (d : Dialect) : Bool := d != duckdb

/-- Any name may stand for the field of a date. -/
def customDateFields (d : Dialect) : Bool := d != duckdb

end Dialect

end QueryBuild

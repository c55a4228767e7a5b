import QueryBuild.Query.Grammar.Statement
/-!
# Validation

A text is valid if it holds one query and nothing else.
-/

namespace QueryBuild.Query

inductive ValidationError where
  | unreadable (message : String)
  | empty
  /-- The statement is no query; its first word. -/
  | command (word : String)
  | several (count : Nat)
deriving DecidableEq, Inhabited

def ValidationError.message : ValidationError → String
  | unreadable message => "sql parser error: " ++ message
  | empty => "no SQL statement found"
  | command word => "expected a query, found: " ++ word
  | several count => "expected a single query, found " ++ toString count ++ " statements"

def statements (d : Dialect) (sql : String) : Except ValidationError (List Grammar.Statement) :=
  match lexemes d sql with
  | .error e => .error (.unreadable (e.message ++ e.position.text))
  | .ok lexemes =>
    match Grammar.statementsOf d lexemes with
    | .error failure => .error (.unreadable failure.text)
    | .ok found => .ok found

/-- Checks that a text holds one query. -/
def validate (d : Dialect) (sql : String) : Except ValidationError Unit :=
  match statements d sql with
  | .error e => .error e
  | .ok [] => .error .empty
  | .ok [.query] => .ok ()
  | .ok [.command word] => .error (.command word)
  | .ok several => .error (.several several.length)

end QueryBuild.Query

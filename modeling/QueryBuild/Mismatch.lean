import QueryBuild.Text.Quoted
/-!
# Values of the wrong shape

What is said of a value that was read well but is not what its place wants.
-/

namespace QueryBuild

inductive Found where
  | null
  | bool (value : Bool)
  | integer (value : Int)
  | float (text : String)
  | str (value : String)
  | sequence
  | map
deriving DecidableEq, Inhabited

def Found.text : Found → String
  | null => "null"
  | bool value => "boolean \x60" ++ (if value then "true" else "false") ++ "\x60"
  | integer value => "integer \x60" ++ toString value ++ "\x60"
  | float text => "floating point \x60" ++ text ++ "\x60"
  | str value => "string " ++ Text.quoted value
  | sequence => "sequence"
  | map => "map"

/-- Why a value does not fit its place. -/
inductive Mismatch where
  | kind (found : Found) (expected : String)
  | range (found : Found) (expected : String)
  | choice (name : String) (known : List String)
  | missing (field : String)
  | duplicate (field : String)
  | length (found : Nat) (expected : String)
deriving DecidableEq, Inhabited

namespace Mismatch

/-- A name between backticks. -/
def marked (name : String) : String :=
  "\x60" ++ name ++ "\x60"

def oneOf : List String → String
  | [] => "there are no variants"
  | [a] => "expected " ++ marked a
  | [a, b] => "expected " ++ marked a ++ " or " ++ marked b
  | names => "expected one of " ++ ", ".intercalate (names.map marked)

def text : Mismatch → String
  | kind found expected => "invalid type: " ++ found.text ++ ", expected " ++ expected
  | range found expected => "invalid value: " ++ found.text ++ ", expected " ++ expected
  | choice name known => "unknown variant " ++ marked name ++ ", " ++ oneOf known
  | missing field => "missing field " ++ marked field
  | duplicate field => "duplicate field " ++ marked field
  | length found expected =>
    "invalid length " ++ toString found ++ ", expected " ++ expected

end Mismatch

/-- The name that a value stands for, which has to be among the known ones. -/
def Found.choose (known : List String) : Found → Except Mismatch String
  | .str name => if known.contains name then .ok name else .error (.choice name known)
  | .map => .error (.range .map "map with a single key")
  | other => .error (.kind other "string or map")

end QueryBuild

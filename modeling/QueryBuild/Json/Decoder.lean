import QueryBuild.Json.Basic
import QueryBuild.Json.Number
/-!
# Decoders

A decoder reads the text of one value of a given shape and yields the value in its normal form: the
known fields of a record in their order, a choice as its name. The text is judged as it is read, so
that the first thing that is wrong is reported, be it the text or the shape.
-/

namespace QueryBuild.Json

/-- Reads the text of a value of some shape. -/
abbrev Decoder := Reader Json

/-- When a field of a record may be left out. -/
inductive Presence where
  | required
  /-- In an object, but not in a sequence. -/
  | optional
  | defaulted
deriving DecidableEq, Inhabited

structure Field where
  name : String
  presence : Presence
  decoder : Decoder

namespace Reader

/-- Reads the value at hand far enough to name it and fails because another kind is wanted. -/
def refuse {α : Type} (expected : String) : Reader α := do
  match ← peek with
  | some 'n' =>
    skip
    word "ull".toList
    failHere (.mismatch (.kind .null expected))
  | some 't' =>
    skip
    word "rue".toList
    failHere (.mismatch (.kind (.bool true) expected))
  | some 'f' =>
    skip
    word "alse".toList
    failHere (.mismatch (.kind (.bool false) expected))
  | some '-' =>
    skip
    let n ← number false
    failHere (.mismatch (.kind n.found expected))
  | some '"' =>
    skip
    let s ← string
    failHere (.mismatch (.kind (.str s) expected))
  | some '[' => failHere (.mismatch (.kind .sequence expected))
  | some '\x7b' => failHere (.mismatch (.kind .map expected))
  | some c =>
    if c.isDigit then
      let n ← number true
      failHere (.mismatch (.kind n.found expected))
    else failNext .noValue
  | none => failNext .noValue

def colon : Reader Unit := do
  match ← peekSolid with
  | some ':' => skip
  | some _ => failNext .noColon
  | none => failNext .endInObject

def nextItem (first : Bool) : Reader Bool := do
  match ← peekSolid with
  | none => failNext .endInList
  | some ']' => pure false
  | some c =>
    if first then pure true
    else if c == ',' then
      skip
      match ← peekSolid with
      | some ']' => failNext .trailingComma
      | some _ => pure true
      | none => failNext .endInValue
    else failNext .noCommaOrListEnd

def nextKey (first : Bool) : Reader Bool := do
  match ← peekSolid with
  | none => failNext .endInObject
  | some '\x7d' => pure false
  | some c =>
    if first then
      if c == '"' then pure true else failNext .keyNotString
    else if c == ',' then
      skip
      match ← peekSolid with
      | some '"' => pure true
      | some '\x7d' => failNext .trailingComma
      | some _ => failNext .keyNotString
      | none => failNext .endInValue
    else failNext .noCommaOrObjectEnd

def endList : Reader Unit := do
  match ← peekSolid with
  | some ']' => skip
  | some ',' =>
    skip
    match ← peekSolid with
    | some ']' => failNext .trailingComma
    | _ => failNext .trailingCharacters
  | some _ => failNext .trailingCharacters
  | none => failNext .endInList

def endObject : Reader Unit := do
  match ← peekSolid with
  | some '\x7d' => skip
  | some ',' => failNext .trailingComma
  | some _ => failNext .trailingCharacters
  | none => failNext .endInObject

mutual

/-- Leaves out a value of any kind; `fuel` bounds the steps. -/
def skipValue (fuel : Nat) : Reader Unit :=
  match fuel with
  | 0 => failNext .noValue
  | fuel + 1 => do
    match ← peekValue with
    | 'n' => skip; word "ull".toList
    | 't' => skip; word "rue".toList
    | 'f' => skip; word "alse".toList
    | '-' => skip; skipNumber
    | '"' => skip; skipString
    | '[' =>
      skip
      match ← peekSolid with
      | some ']' => skip
      | some _ => skipItems fuel
      | none => failNext .endInList
    | '\x7b' =>
      skip
      match ← peekSolid with
      | some '\x7d' => skip
      | some _ => skipFields fuel
      | none => failNext .endInObject
    | c => if c.isDigit then skipNumber else failNext .noValue

def skipItems (fuel : Nat) : Reader Unit :=
  match fuel with
  | 0 => failNext .noValue
  | fuel + 1 => do
    skipValue fuel
    match ← peekSolid with
    | some ',' => skip; skipItems fuel
    | some ']' => skip
    | some _ => failNext .noCommaOrListEnd
    | none => failNext .endInList

def skipFields (fuel : Nat) : Reader Unit :=
  match fuel with
  | 0 => failNext .noValue
  | fuel + 1 => do
    match ← peekSolid with
    | some '"' => skip; skipString
    | some _ => failNext .keyNotString
    | none => failNext .endInObject
    colon
    skipValue fuel
    match ← peekSolid with
    | some ',' => skip; skipFields fuel
    | some '\x7d' => skip
    | some _ => failNext .noCommaOrObjectEnd
    | none => failNext .endInObject

end

/-- A number of steps that suffices for any reading of the rest. -/
def enoughFuel : Reader Nat := fun rest =>
  .ok (2 * rest.length + 2, rest)

def items (decoder : Decoder) (first : Bool) : Nat → Reader (List Json)
  | 0 => failNext .noValue
  | fuel + 1 => do
    if ← nextItem first then
      let x ← decoder
      let xs ← items decoder false fuel
      pure (x :: xs)
    else pure []

/-- Reads the fields of an object; a field that is there twice ends the reading. -/
def objectFields (fields : List Field) (seen : List (String × Json)) (first : Bool) :
    Nat → Reader (Except Mismatch (List (String × Json)))
  | 0 => failNext .noValue
  | fuel + 1 => do
    if ← nextKey first then
      skip
      let key ← string
      match fields.find? fun field => field.name == key with
      | none =>
        colon
        skipValue (← enoughFuel)
        objectFields fields seen false fuel
      | some field =>
        -- A second value is not even read.
        if (seen.lookup key).isSome then pure (.error (.duplicate key))
        else
          colon
          let value ← field.decoder
          objectFields fields ((key, value) :: seen) false fuel
    else pure (.ok seen)

/-- The fields of a record in their order, or the first one that is missing. -/
def arrange (fields : List Field) (seen : List (String × Json)) :
    Except Mismatch (List (String × Json)) :=
  match fields with
  | [] => .ok []
  | field :: fields =>
    match seen.lookup field.name with
    | some value => (arrange fields seen).map fun rest => (field.name, value) :: rest
    | none =>
      if field.presence == .required then .error (.missing field.name) else arrange fields seen

/-- Reads the fields of a record that is written as a list. -/
def listFields (expected : String) (index : Nat) :
    List Field → Reader (Except Mismatch (List (String × Json)))
  | [] => pure (.ok [])
  | field :: fields => do
    if ← nextItem (index == 0) then
      let value ← field.decoder
      match ← listFields expected (index + 1) fields with
      | .ok rest => pure (.ok ((field.name, value) :: rest))
      | .error e => pure (.error e)
    else if field.presence == .defaulted then listFields expected (index + 1) fields
    else pure (.error (.length index expected))

/-- Passes over the end of an object, as far as it is there. -/
def passObjectEnd : Reader Unit := do
  match ← peekSolid with
  | some '\x7d' => skip
  | _ => pure ()

def passListEnd : Reader Unit := do
  match ← peekSolid with
  | some ']' => skip
  | some ',' =>
    skip
    let _ ← peekSolid
  | _ => pure ()

end Reader

namespace Decoder

open Reader

def text (expected : String) : Decoder := do
  if (← peekValue) == '"' then
    skip
    pure (.str (← string))
  else refuse expected

/-- A whole number from zero up to a limit. -/
def counter (limit : Nat) (expected : String) : Decoder := do
  let c ← peekValue
  if c == '-' then
    skip
    check (← number false)
  else if c.isDigit then check (← number true)
  else refuse expected
where
  check (n : Number) : Decoder :=
    match n with
    | .natural n =>
      if n ≤ limit then pure (.num n) else failHere (.mismatch (.range (.integer n) expected))
    | .negative n => failHere (.mismatch (.range (.integer n) expected))
    | .float _ => failHere (.mismatch (.kind n.found expected))

/-- One of some names, which has to stand in quotes. -/
def name (known : List String) : Decoder := do
  if (← peekValue) == '"' then
    skip
    let s ← string
    if known.contains s then pure (.str s) else failHere (.mismatch (.choice s known))
  else refuse "variant identifier"

def nothing : Reader Unit := do
  if (← peekValue) == 'n' then
    skip
    word "ull".toList
  else refuse "unit"

/-- One of some names, by itself or as the only key of an object that holds null. -/
def choice (known : List String) : Decoder := do
  match ← peekValue with
  | '"' => name known
  | '\x7b' =>
    skip
    let value ← name known
    colon
    nothing
    match ← peekSolid with
    | some '\x7d' => skip; pure value
    | some _ => failHere .noValue
    | none => failHere .endInObject
  | _ => failNext .noValue

def orNull (decoder : Decoder) : Decoder := do
  match ← peekSolid with
  | some 'n' =>
    skip
    word "ull".toList
    pure .null
  | _ => decoder

def list (decoder : Decoder) : Decoder := do
  if (← peekValue) == '[' then
    skip
    let values ← items decoder true (← enoughFuel)
    endList
    pure (.arr values)
  else refuse "a sequence"

/-- The words for a record that is written as a list. -/
def listWords (name : String) (size : Nat) : String :=
  "struct " ++ name ++ " with " ++ toString size ++ (if size == 1 then " element" else " elements")

/-- A record, as an object with fields in any order or as the list of its fields. Unknown fields of
an object are left out. -/
def record (name : String) (fields : List Field) : Decoder := do
  match ← peekValue with
  | '\x7b' =>
    skip
    let seen ← objectFields fields [] true (← enoughFuel)
    match seen.bind (arrange fields) with
    | .ok found =>
      endObject
      pure (.obj found)
    -- The end is passed over, so that the failure is placed behind the record.
    | .error e =>
      passObjectEnd
      failHere (.mismatch e)
  | '[' =>
    skip
    match ← listFields (listWords name fields.length) 0 fields with
    | .ok found =>
      endList
      pure (.obj found)
    | .error e =>
      passListEnd
      failHere (.mismatch e)
  | _ => refuse ("struct " ++ name)

end Decoder

def decode (decoder : Decoder) (text : String) : Except Failure Json :=
  match decoder text.toList with
  | .error failure => .error failure
  | .ok (value, rest) =>
    match rest.dropWhile Reader.isSpace with
    | [] => .ok value
    | left => .error ⟨.trailingCharacters, left, 1⟩

end QueryBuild.Json

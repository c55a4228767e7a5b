import QueryBuild.Json.Reader
/-!
# JSON numbers

A number is whole if it is written without a point and an exponent and fits into 64 bits; any other
number is a floating point number.
-/

namespace QueryBuild.Json

inductive Number where
  | natural (value : Nat)
  | negative (value : Int)
  | float (value : Float)

namespace Number

/-- What is said of a number that stands in the wrong place. -/
def found : Number → Found
  | natural n => .integer n
  | negative n => .integer n
  | float x => .float (floatText Decimal.compact x)

def wholeLimit : Nat :=
  Nat.pow 2 64 - 1

/-- Continues a number with digits as long as it stays within the limit; also how many digits were
left out. -/
def accumulate (value : Nat) : List Char → Nat × Nat
  | [] => (value, 0)
  | d :: ds =>
    let next := value * 10 + (d.toNat - 48)
    if next ≤ wholeLimit then accumulate next ds else (value, ds.length + 1)

def powerOfTen (n : Nat) : Float :=
  Float.ofScientific 1 false n

/-- `x * 10 ^ e`, in steps of at most 308 powers; none if it is too large. -/
def scale (x : Float) (e : Int) : Nat → Option Float
  | 0 => some 0
  | steps + 1 =>
    if e.natAbs ≤ 308 then
      if 0 ≤ e then
        let y := x * powerOfTen e.natAbs
        if y.isInf then none else some y
      else some (x / powerOfTen e.natAbs)
    else if x == 0 then some x
    else if 0 ≤ e then none
    else scale (x / powerOfTen 308) (e + 308) steps

end Number

namespace Reader

def floatOfParts (positive : Bool) (significand : Nat) (exponent : Int) : Reader Number := do
  match Number.scale (Float.ofNat significand) exponent 8 with
  | some x => pure (.float (if positive then x else -x))
  | none => failHere .numberOutOfRange

def someDigits : Reader (List Char) := do
  let ds ← digits
  if ds.isEmpty then
    match ← peek with
    | some _ => failNext .invalidNumber
    | none => failNext .endInValue
  else pure ds

/-- Reads the sign and the digits of an exponent after its letter. The first digit is taken before
it is looked at. -/
def exponentParts : Reader (Bool × List Char) := do
  let positive ← (do
    match ← peek with
    | some '+' => skip; pure true
    | some '-' => skip; pure false
    | _ => pure true)
  match ← peek with
  | none => failHere .endInValue
  | some c =>
    if c.isDigit then pure (positive, ← digits)
    else fun rest => .error ⟨.invalidNumber, rest, 1⟩

def exponentLimit : Nat :=
  Nat.pow 2 31 - 1

/-- Reads digits of an exponent up to the first one that makes it too large. -/
def cutExponent (value : Nat) : List Char → Option (List Char)
  | [] => none
  | d :: ds =>
    let next := value * 10 + (d.toNat - 48)
    if next ≤ exponentLimit then cutExponent next ds else some ds

/-- Reads an exponent after its letter and puts the number together. -/
def exponentTail (positive : Bool) (significand : Nat) (start : Int) : Reader Number := do
  let (up, ds) ← exponentParts
  match cutExponent 0 ds with
  | some left =>
    if significand != 0 && up then
      fun rest => .error ⟨.numberOutOfRange, left ++ rest, 0⟩
    else pure (.float (if positive then 0 else -0.0))
  | none =>
    let value : Int := (Number.accumulate 0 ds).1
    floatOfParts positive significand (if up then start + value else start - value)

def numberTail (positive : Bool) (significand : Nat) (start : Int) (whole : Reader Number) :
    Reader Number := do
  match ← peek with
  | some '.' =>
    skip
    let ds ← someDigits
    let (significand, dropped) := Number.accumulate significand ds
    let exponent := start - (ds.length - dropped : Nat)
    match ← peek with
    | some 'e' | some 'E' => skip; exponentTail positive significand exponent
    | _ => floatOfParts positive significand exponent
  | some 'e' | some 'E' => skip; exponentTail positive significand start
  | _ => whole

def wholeNumber (positive : Bool) (n : Nat) : Number :=
  if positive then .natural n
  else if n == 0 || n > Nat.pow 2 63 then .float (-(Float.ofNat n))
  else .negative (-(n : Int))

def number (positive : Bool) : Reader Number := do
  match ← peek with
  | none => failHere .endInValue
  | some '0' =>
    skip
    match ← peek with
    | some c =>
      if c.isDigit then failNext .invalidNumber
      else numberTail positive 0 0 (pure (wholeNumber positive 0))
    | none => pure (wholeNumber positive 0)
  | some c =>
    if c.isDigit then
      let ds ← digits
      let (significand, dropped) := Number.accumulate 0 ds
      numberTail positive significand dropped <|
        if dropped == 0 then pure (wholeNumber positive significand)
        else floatOfParts positive significand dropped
    else fun rest => .error ⟨.invalidNumber, rest, 1⟩

def skipNumber : Reader Unit := do
  match ← peek with
  | some '0' =>
    skip
    match ← peek with
    | some c => if c.isDigit then failNext .invalidNumber else tail
    | none => tail
  | some c =>
    if c.isDigit then
      let _ ← digits
      tail
    else fun rest => .error ⟨.invalidNumber, rest, 1⟩
  | none => failHere .invalidNumber
where
  tail : Reader Unit := do
    match ← peek with
    | some '.' =>
      skip
      let ds ← digits
      if ds.isEmpty then failNext .invalidNumber
      match ← peek with
      | some 'e' | some 'E' => skip; exponent
      | _ => pure ()
    | some 'e' | some 'E' => skip; exponent
    | _ => pure ()
  exponent : Reader Unit := do
    match ← peek with
    | some '+' | some '-' => skip
    | _ => pure ()
    match ← peek with
    | some c =>
      if c.isDigit then
        let _ ← digits
      else fun rest => .error ⟨.invalidNumber, rest, 1⟩
    | none => failHere .invalidNumber

end Reader

end QueryBuild.Json

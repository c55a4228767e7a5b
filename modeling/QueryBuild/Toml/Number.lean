import QueryBuild.Toml.Quoted
/-!
# TOML numbers, dates and times

Whole numbers of 64 bits in four bases, floating point numbers, and dates and times. Underscores may
stand between digits.
-/

namespace QueryBuild.Toml.Reader

def digit : Reader Char :=
  satisfy Char.isDigit

/-- Reads further digits, of which each may follow an underscore. -/
def moreDigits (p : Char → Bool) : Reader Unit := do
  let _ ← many <| orElse (satisfy p) do
    let _ ← char '_'
    commit (expecting "digit" (satisfy p))

def sign : Reader (Option Char) :=
  optional (satisfy fun c => c == '+' || c == '-')

/-- Reads a whole number in decimal digits, without leading zeros. -/
def decimal : Reader (List Char) :=
  named "integer" <| taken do
    let _ ← sign
    orElse
      (do let _ ← satisfy fun c => c.isDigit && c != '0'; moreDigits Char.isDigit)
      (do let _ ← digit)

/-- Reads a whole number in another base after its marker. -/
def based (subject marker : String) (p : Char → Bool) : Reader (List Char) :=
  named subject do
    literal marker.toList
    commit <| taken do
      let _ ← satisfy p
      moreDigits p

def wholeNumber (negative : Bool) (base : Nat) (digits : List Char) : Except (Option Cause) Int :=
  let n := (digits.filter (· != '_')).foldl (fun n c => n * base + hexValue c) 0
  if negative then
    if n ≤ Nat.pow 2 63 then .ok (-(n : Int)) else .error (some .numberTooSmall)
  else if n < Nat.pow 2 63 then .ok n
  else .error (some .numberTooLarge)

def signedNumber : List Char → Except (Option Cause) Int
  | '-' :: digits => wholeNumber true 10 digits
  | '+' :: digits => wholeNumber false 10 digits
  | digits => wholeNumber false 10 digits

def integer : Reader Int := fun c =>
  match c.rest with
  | '0' :: 'x' :: _ =>
    commit (convert (based "hexadecimal integer" "0x" isHexDigit) (wholeNumber false 16)) c
  | '0' :: 'o' :: _ =>
    commit (convert (based "octal integer" "0o" fun d => '0' ≤ d && d ≤ '7')
      (wholeNumber false 8)) c
  | '0' :: 'b' :: _ =>
    commit (convert (based "binary integer" "0b" fun d => d == '0' || d == '1')
      (wholeNumber false 2)) c
  | _ => convertRead decimal signedNumber c

/-- Reads digits that may start with zeros. -/
def anyDigits : Reader Unit := do
  let _ ← digit
  moreDigits Char.isDigit

def exponent : Reader Unit := do
  let _ ← satisfy fun c => c == 'e' || c == 'E'
  let _ ← sign
  commit anyDigits

def fraction : Reader Unit := do
  let _ ← char '.'
  commit (expecting "digit" anyDigits)

/-- The number that some digits write; the sign of an exponent stands in front of it. -/
def signedNat (digits : List Char) : Int :=
  let value (ds : List Char) : Int := ds.foldl (fun n c => n * 10 + hexValue c) 0
  match digits with
  | '-' :: ds => -value ds
  | '+' :: ds => value ds
  | ds => value ds

/-- The floating point number that is nearest to a text. -/
def floatOfText (text : List Char) : Float :=
  let text := text.filter (· != '_')
  let negative := text.head? == some '-'
  let unsigned := text.dropWhile fun c => c == '+' || c == '-'
  let significand := unsigned.takeWhile fun c => c != 'e' && c != 'E'
  let exponent := signedNat ((unsigned.dropWhile fun c => c != 'e' && c != 'E').drop 1)
  let whole := significand.takeWhile (· != '.')
  let fraction := (significand.dropWhile (· != '.')).drop 1
  let digits := (signedNat (whole ++ fraction)).toNat
  let power := exponent - fraction.length
  let magnitude := power + (whole ++ fraction).length
  let value : Float :=
    if digits == 0 || magnitude < -400 then 0
    else if magnitude > 400 then Float.ofScientific 1 false 400
    else Float.ofScientific digits (power < 0) power.natAbs
  if negative then -value else value

def plainFloat : Reader Float :=
  convertRead
    (taken do
      let _ ← decimal
      orElse exponent (do fraction; let _ ← optional exponent))
    fun text =>
      let x := floatOfText text
      if x.isInf && x > 0 then .error none else .ok x

/-- Reads infinity or what is no number. -/
def specialFloat : Reader Float := do
  let s ← sign
  let x ← orElse (do literal "inf".toList; return (1.0 / 0.0 : Float))
    (do literal "nan".toList; return (0.0 / 0.0 : Float))
  return if s == some '-' then -x else x

def float : Reader Float :=
  named "floating-point number" (orElse plainFloat specialFloat)

/-- Reads a number of decimal digits whose value lies between two bounds. -/
def bounded (size low high : Nat) : Reader Nat :=
  convert (exactly size Char.isDigit) fun digits =>
    let n := digits.foldl (fun n c => n * 10 + hexValue c) 0
    if low ≤ n && n ≤ high then .ok n else .error (some .outOfRange)

def daysIn (year month : Nat) : Nat :=
  if month == 2 then
    if year % 4 == 0 && (year % 100 != 0 || year % 400 == 0) then 29 else 28
  else if month == 4 || month == 6 || month == 9 || month == 11 then 30
  else 31

def date : Reader Unit := do
  let year ← bounded 4 0 9999
  let _ ← char '-'
  let month ← commit (bounded 2 1 12)
  let _ ← commit (char '-')
  let _ ← commit <| convert (bounded 2 1 31) fun day =>
    if day ≤ daysIn year month then .ok day else .error (some .outOfRange)

def time : Reader Unit := do
  let _ ← bounded 2 0 23
  let _ ← char ':'
  commit do
    let _ ← bounded 2 0 59
    let _ ← char ':'
    let _ ← bounded 2 0 60
    let _ ← optional do
      let _ ← char '.'
      let _ ← several digit

/-- Reads the distance from universal time. -/
def timeOffset : Reader Unit :=
  named "time offset" <| orElse (do let _ ← satisfy fun c => c == 'Z' || c == 'z') do
    let _ ← satisfy fun c => c == '+' || c == '-'
    commit do
      let _ ← bounded 2 0 23
      let _ ← char ':'
      let _ ← bounded 2 0 59

/-- Reads a date, a time or both. -/
def moment : Reader Unit :=
  orElse
    (named "date-time" do
      date
      let _ ← optional do
        let _ ← satisfy fun c => c == 'T' || c == 't' || c == ' '
        time
        let _ ← optional timeOffset)
    (named "time" time)

end QueryBuild.Toml.Reader

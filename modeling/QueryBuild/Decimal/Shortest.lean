/-!
# Shortest decimals of binary numbers

A binary floating point number stands for all reals that are rounded to it. Among the decimals in
that interval the shortest one is chosen, and of several shortest ones the one that is nearest to
the number.
-/

namespace QueryBuild

/-- The decimal `digits * 10 ^ exponent`. -/
structure Decimal where
  digits : Nat
  exponent : Int
deriving DecidableEq, Inhabited

/-- The number `mantissa * 2 ^ exponent`. -/
structure Binary where
  mantissa : Nat
  exponent : Int
  /-- The next smaller number is only half as far away as the next larger one. -/
  narrowBelow : Bool
deriving DecidableEq, Inhabited

namespace Binary

def ofFloat (x : Float) : Binary :=
  let bits : Nat := x.toBits.toNat
  let field : Nat := bits / Nat.pow 2 52 % Nat.pow 2 11
  let fraction : Nat := bits % Nat.pow 2 52
  if field == 0 then ⟨fraction, -1074, false⟩
  else ⟨fraction + Nat.pow 2 52, (field : Int) - 1075, fraction == 0 && field > 1⟩

/-- Compares `a * 2 ^ p` with `b * 10 ^ e`. -/
def compareScaled (a : Nat) (p : Int) (b : Nat) (e : Int) : Ordering :=
  compare (a * Nat.pow 2 p.toNat * Nat.pow 10 (-e).toNat)
    (b * Nat.pow 10 e.toNat * Nat.pow 2 (-p).toNat)

/-- Whether a decimal is rounded to a number; a tie goes to the even mantissa. -/
def accepts (x : Binary) (d : Decimal) : Bool :=
  let below := if x.narrowBelow then 1 else 2
  let low := compareScaled (4 * x.mantissa - below) (x.exponent - 2) d.digits d.exponent
  let high := compareScaled (4 * x.mantissa + 2) (x.exponent - 2) d.digits d.exponent
  if x.mantissa % 2 == 0 then low != .gt && high != .lt else low == .lt && high == .gt

/-- The neighbours of a number among the multiples of `10 ^ e`, the nearer one first. -/
def neighbours (x : Binary) (e : Int) : List Decimal :=
  let top := x.mantissa * Nat.pow 2 x.exponent.toNat * Nat.pow 10 (-e).toNat
  let bottom := Nat.pow 2 (-x.exponent).toNat * Nat.pow 10 e.toNat
  let below := top / bottom
  let middle := compare (2 * top) ((2 * below + 1) * bottom)
  let upper := middle == .gt || (middle == .eq && below % 2 == 1)
  if upper then [⟨below + 1, e⟩, ⟨below, e⟩] else [⟨below, e⟩, ⟨below + 1, e⟩]

/-- The first decimal that is rounded to a number, among the multiples of `10 ^ e` and of the
`steps` smaller powers of ten. -/
def searchDecimal (x : Binary) (e : Int) : Nat → Decimal
  | 0 => ⟨0, e⟩
  | steps + 1 =>
    match (x.neighbours e).find? x.accepts with
    | some d => d
    | none => x.searchDecimal (e - 1) steps

def shortest (x : Binary) : Decimal :=
  if x.mantissa == 0 then ⟨0, 0⟩ else x.searchDecimal 309 660

end Binary

namespace Decimal

def digitChars (d : Decimal) : List Char :=
  Nat.toDigits 10 d.digits

/-- The position of the first digit, counted from the point to the left. -/
def magnitude (d : Decimal) : Int :=
  d.exponent + d.digitChars.length - 1

/-- The decimal in full, with a point and at least one digit on both sides of it. -/
def positional (d : Decimal) : List Char :=
  let digits := d.digitChars
  if 0 ≤ d.exponent then digits ++ List.replicate d.exponent.toNat '0' ++ ['.', '0']
  else
    let places := (-d.exponent).toNat
    let padded := List.replicate (places + 1 - digits.length) '0' ++ digits
    padded.take (padded.length - places) ++ '.' :: padded.drop (padded.length - places)

def exponentChars (n : Int) : List Char :=
  let digits := Nat.toDigits 10 n.natAbs
  (if n < 0 then '-' else '+') :: List.replicate (2 - digits.length) '0' ++ digits

/-- One digit, a point if more digits follow, these digits, and the exponent. -/
def scientific (d : Decimal) : List Char :=
  match d.digitChars with
  | [] => []
  | first :: rest =>
    first :: (if rest.isEmpty then [] else '.' :: rest) ++ 'e' :: exponentChars d.magnitude

/-- The decimal in full if its magnitude lies between -5 and 15, and with an exponent otherwise. -/
def compact (d : Decimal) : List Char :=
  if d.digits == 0 || (-5 ≤ d.magnitude && d.magnitude ≤ 15) then d.positional else d.scientific

end Decimal

/-- The text of a floating point number whose finite absolute values are written by `write`. -/
def floatText (write : Decimal → List Char) (x : Float) : String :=
  if x.isNaN then "NaN"
  else
    let sign := if x.toBits.toNat ≥ Nat.pow 2 63 then "-" else ""
    let value := if x.isInf then ['i', 'n', 'f'] else write (Binary.ofFloat x).shortest
    sign ++ String.ofList value

end QueryBuild

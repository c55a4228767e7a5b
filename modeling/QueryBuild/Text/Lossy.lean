/-!
# Text with broken bytes

Bytes that should be UTF-8. Every longest piece that starts a character without completing it, and
every byte that cannot start one, is replaced by one replacement character.
-/

namespace QueryBuild.Text

/-- The number of bytes of the character that a byte starts and the range of its second byte. -/
def leadInfo (b : Nat) : Option (Nat × Nat × Nat) :=
  if 0xC2 ≤ b && b ≤ 0xDF then some (2, 0x80, 0xBF)
  else if b == 0xE0 then some (3, 0xA0, 0xBF)
  else if b == 0xED then some (3, 0x80, 0x9F)
  else if 0xE1 ≤ b && b ≤ 0xEF then some (3, 0x80, 0xBF)
  else if b == 0xF0 then some (4, 0x90, 0xBF)
  else if 0xF1 ≤ b && b ≤ 0xF3 then some (4, 0x80, 0xBF)
  else if b == 0xF4 then some (4, 0x80, 0x8F)
  else none

def isContinuation (b : UInt8) : Bool :=
  0x80 ≤ b.toNat && b.toNat ≤ 0xBF

/-- The continuation bytes at the front, at most `n`, of which the first one lies in a range. -/
def continuation (n low high : Nat) : List UInt8 → List UInt8
  | [] => []
  | b :: rest =>
    if n == 0 || b.toNat < low || high < b.toNat then []
    else b :: (rest.take (n - 1)).takeWhile isContinuation

/-- The code point of a first byte and the bytes that continue it. -/
def codePoint (size lead : Nat) (more : List UInt8) : Nat :=
  more.foldl (fun n b => n * 64 + b.toNat % 64) (lead % Nat.pow 2 (7 - size))

def lossyChars : List UInt8 → List Char
  | [] => []
  | b :: rest =>
    if b.toNat < 0x80 then Char.ofNat b.toNat :: lossyChars rest
    else
      match leadInfo b.toNat with
      | none => '\uFFFD' :: lossyChars rest
      | some (size, low, high) =>
        let more := continuation (size - 1) low high rest
        if more.length + 1 == size then
          Char.ofNat (codePoint size b.toNat more) :: lossyChars (rest.drop more.length)
        else '\uFFFD' :: lossyChars (rest.drop more.length)
termination_by bytes => bytes.length
decreasing_by
  all_goals simp only [List.length_cons, List.length_drop]; omega

def lossy (bytes : List UInt8) : String :=
  String.ofList (lossyChars bytes)

end QueryBuild.Text

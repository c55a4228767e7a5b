/-!
# White space and lines

Which characters count as white space, and the cuts made with them.
-/

namespace QueryBuild.Text

/-- The characters with the Unicode property White_Space. -/
def isBlank (c : Char) : Bool :=
  let n := c.toNat
  (0x09 ≤ n && n ≤ 0x0D) || n == 0x20 || n == 0x85 || n == 0xA0 || n == 0x1680 ||
    (0x2000 ≤ n && n ≤ 0x200A) || n == 0x2028 || n == 0x2029 || n == 0x202F || n == 0x205F ||
    n == 0x3000

/-- A list without its longest tail of elements that satisfy `p`. -/
def dropTail {α : Type} (p : α → Bool) (xs : List α) : List α :=
  (xs.reverse.dropWhile p).reverse

theorem dropTail_append_tail {α : Type} (p : α → Bool) (xs : List α) :
    dropTail p xs ++ (xs.reverse.takeWhile p).reverse = xs := by
  rw [dropTail, ← List.reverse_append, List.takeWhile_append_dropWhile, List.reverse_reverse]

def trimEndWhere (p : Char → Bool) (s : String) : String :=
  String.ofList (dropTail p s.toList)

def trimEnd (s : String) : String :=
  trimEndWhere isBlank s

def allBlank (s : String) : Bool :=
  s.toList.all isBlank

/-- Cuts a list after every element that satisfies `p`; the cut element ends its piece, and no
piece is empty. -/
def splitAfter {α : Type} (p : α → Bool) : List α → List (List α)
  | [] => []
  | x :: xs =>
    if p x then [x] :: splitAfter p xs
    else
      match splitAfter p xs with
      | [] => [[x]]
      | piece :: rest => (x :: piece) :: rest

theorem flatten_splitAfter {α : Type} (p : α → Bool) (xs : List α) :
    (splitAfter p xs).flatten = xs := by
  induction xs with
  | nil => rfl
  | cons x xs ih =>
    rw [splitAfter]
    split
    · simp [ih]
    · split
      · rename_i h
        simp [h] at ih
        simp [← ih]
      · rename_i h
        simp [h] at ih
        simp [← ih]

/-- A line without its line end, `\n` or `\r\n`. -/
def dropLineEnd (line : List Char) : List Char :=
  match line.reverse with
  | '\n' :: '\r' :: rest => rest.reverse
  | '\n' :: rest => rest.reverse
  | _ => line

/-- The lines of a text without their line ends; a line end closes a line and opens none. -/
def lines (s : String) : List String :=
  (splitAfter (· == '\n') s.toList).map fun line => String.ofList (dropLineEnd line)

/-- The pieces between the elements that satisfy `p`; there is always one more piece than there
are such elements. -/
def splitOn {α : Type} (p : α → Bool) : List α → List (List α)
  | [] => [[]]
  | x :: xs =>
    if p x then [] :: splitOn p xs
    else
      match splitOn p xs with
      | [] => [[x]]
      | piece :: rest => (x :: piece) :: rest

theorem splitOn_ne_nil {α : Type} (p : α → Bool) (xs : List α) : splitOn p xs ≠ [] := by
  cases xs with
  | nil => simp [splitOn]
  | cons x xs =>
    rw [splitOn]
    split
    · simp
    · split <;> simp

/-- The list without `front`, if it starts with it. -/
def stripFront? {α : Type} [BEq α] : List α → List α → Option (List α)
  | [], xs => some xs
  | _ :: _, [] => none
  | y :: ys, x :: xs => if x == y then stripFront? ys xs else none

end QueryBuild.Text

/-!
# Similar words

How much two words resemble each other, as a number from zero to one: the shares of their
characters that have a partner at about the same place of the other word, and the share of partners
that stand in the same order.
-/

namespace QueryBuild.Text

/-- Marks the first free character of a word that equals `c` and lies between two places. -/
def markPartner (c : Char) (low high here : Nat) :
    List (Char × Bool) → Option (List (Char × Bool))
  | [] => none
  | (x, taken) :: rest =>
    if low ≤ here && here < high && x == c && !taken then some ((x, true) :: rest)
    else (markPartner c low high (here + 1) rest).map ((x, taken) :: ·)

/-- The characters that have a partner, and the other word with the partners marked; a partner is
at most `reach` places away. -/
def pairUp (reach here : Nat) :
    List Char → List (Char × Bool) → List Char × List (Char × Bool)
  | [], other => ([], other)
  | c :: rest, other =>
    match markPartner c (here - reach) (here + reach + 1) 0 other with
    | some other =>
      let (paired, other) := pairUp reach (here + 1) rest other
      (c :: paired, other)
    | none => pairUp reach (here + 1) rest other

def similarity (a b : List Char) : Float :=
  if a.isEmpty && b.isEmpty then 1.0
  else
    let reach := max a.length b.length / 2 - 1
    let (paired, marked) := pairUp reach 0 a (b.map fun c => (c, false))
    let partners := (marked.filter Prod.snd).map Prod.fst
    let swapped := ((paired.zip partners).filter fun (x, y) => x != y).length / 2
    let common := Float.ofNat paired.length
    if paired.isEmpty then 0.0
    else
      (common / Float.ofNat a.length + common / Float.ofNat b.length +
        Float.ofNat (paired.length - swapped) / common) / 3.0

/-- Puts a word behind those that resemble no more than it does. -/
def rank (score : Float) (word : String) : List (Float × String) → List (Float × String)
  | [] => [(score, word)]
  | (other, known) :: rest =>
    if other > score then (score, word) :: (other, known) :: rest
    else (other, known) :: rank score word rest

/-- From where on words are similar. -/
def similarityThreshold : Float := 0.7

/-- The words that are similar to one, the most similar one last. -/
def similarWords (word : String) (candidates : List String) : List String :=
  let ranked := candidates.foldl (fun ranked candidate =>
    let score := similarity word.toList candidate.toList
    if score > similarityThreshold then rank score candidate ranked else ranked) []
  ranked.map Prod.snd

end QueryBuild.Text

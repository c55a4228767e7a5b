import Mathlib.Data.List.TakeWhile
import QueryBuild.Query.Lexer
/-!
# Operators as a table

DuckDB reads the longest operator of a table that a text starts with. What follows the operator
has no say in it.
-/

namespace QueryBuild.Query

/-- The characters that separate or end statements by themselves. -/
def breaks : List Char :=
  [';', ' ', '\t', '\n', '\r']

namespace Lexer

variable {rest : List Char} {c : Char} {token : Token} {extra : Nat}

theorem extensible_duckdb (symbol : Symbol) (extra : Nat) (rest : List Char) :
    extensible .duckdb symbol extra rest = sym symbol extra := by
  have : rest.takeWhile (Dialect.extendsOperator .duckdb) = [] := by
    cases rest <;> rfl
  rw [extensible, this]

/-- The first operator of a table that a text starts with, or a lone symbol. -/
def longest (alone : Symbol) : List (List Char × Symbol) → List Char → Scan
  | [], _ => sym alone 0
  | (text, symbol) :: table, rest =>
    if text.isPrefixOf rest then sym symbol text.length else longest alone table rest

/-- The operators that start with a character: what it is alone, and what follows it in longer
ones. -/
def operators : Char → Option (Symbol × List (List Char × Symbol))
  | '(' => some (.leftParen, [])
  | ')' => some (.rightParen, [])
  | ',' => some (.comma, [])
  | ';' => some (.semicolon, [])
  | '\\' => some (.backslash, [])
  | '[' => some (.leftBracket, [])
  | ']' => some (.rightBracket, [])
  | '\x7b' => some (.leftBrace, [])
  | '\x7d' => some (.rightBrace, [])
  | '+' => some (.plus, [])
  | '*' => some (.star, [])
  | '-' => some (.minus, [(['>', '>'], .longArrow), (['>'], .arrow)])
  | '/' => some (.slash, [(['/'], .doubleSlash)])
  | '%' => some (.percent, [])
  | '|' => some (.pipe, [(['/'], .squareRoot), (['|', '/'], .cubeRoot), (['|'], .concat)])
  | '=' => some (.equal, [(['>'], .fatArrow), (['='], .doubleEqual)])
  | '!' => some (.bang, [(['='], .notEqual), (['!'], .doubleBang), (['~', '*'], .bangTildeStar),
      (['~', '~', '*'], .bangDoubleTildeStar), (['~', '~'], .bangDoubleTilde),
      (['~'], .bangTilde)])
  | '<' => some (.less, [(['=', '>'], .spaceship), (['='], .lessEqual), (['>'], .notEqual),
      (['<'], .shiftLeft), (['@'], .arrowAt)])
  | '>' => some (.greater, [(['='], .greaterEqual), (['>'], .shiftRight)])
  | ':' => some (.colon, [([':'], .doubleColon), (['='], .assign)])
  | '&' => some (.ampersand, [(['&'], .doubleAmpersand)])
  | '^' => some (.caret, [(['@'], .caretAt)])
  | '~' => some (.tilde, [(['*'], .tildeStar), (['~', '*'], .doubleTildeStar),
      (['~'], .doubleTilde)])
  | '#' => some (.sharp, [(['-'], .hashMinus), (['>', '>'], .hashLongArrow),
      (['>'], .hashArrow)])
  | '@' => some (.atSign, [(['>'], .atArrow), (['?'], .atQuestion), (['@'], .doubleAt)])
  | _ => none

/-- Whether a comment starts with two characters. -/
def opensComment (c : Char) (rest : List Char) : Bool :=
  (c == '-' && rest.head? == some '-') || (c == '/' && rest.head? == some '*')

theorem prefixed_operator {d : Dialect} {entry : Symbol × List (List Char × Symbol)}
    (h : operators c = some entry) : prefixed d c rest = none := by
  unfold operators at h
  split at h <;> first | rfl | cases h

theorem scan_operator {alone : Symbol} {table : List (List Char × Symbol)}
    (h : operators c = some (alone, table)) (hcomment : opensComment c rest = false) :
    scan .duckdb c rest = longest alone table rest := by
  unfold scan
  rw [prefixed_operator h]
  unfold operators at h
  split at h <;> cases h <;> simp only [extensible_duckdb, longest]
  case h_13 =>
    have hdivision : Dialect.duckdb.integerDivision = true := rfl
    rcases rest with _ | ⟨a, _ | ⟨b, rest⟩⟩ <;> simp only [List.isPrefixOf] <;>
      grind [opensComment]
  case h_14 =>
    cases rest with
    | nil => rfl
    | cons b rest => exact ite_self _
  case h_17 =>
    unfold bang
    rcases rest with _ | ⟨a, _ | ⟨b, _ | ⟨e, rest⟩⟩⟩ <;> simp only [List.isPrefixOf] <;> grind
  case h_24 =>
    have hword : Dialect.duckdb.startsIdentifier '#' = false := by decide
    unfold hash
    simp only [extensible_duckdb]
    rcases rest with _ | ⟨a, _ | ⟨b, rest⟩⟩ <;> simp only [List.isPrefixOf] <;> grind
  case h_25 =>
    have hword : Dialect.duckdb.startsIdentifier '@' = false := by decide
    unfold atSign
    rcases rest with _ | ⟨a, _ | ⟨b, rest⟩⟩ <;> simp only [List.isPrefixOf] <;> grind
  all_goals
    rcases rest with _ | ⟨a, _ | ⟨b, rest⟩⟩ <;> simp only [List.isPrefixOf] <;>
      grind [opensComment]

/-- An operator that ends in a text is read whatever follows. -/
theorem longest_of_append {front tail : List Char} {alone : Symbol}
    {table : List (List Char × Symbol)}
    (h : longest alone table (front ++ tail) = .ok (token, extra)) (hle : extra ≤ front.length) :
    longest alone table front = .ok (token, extra) := by
  induction table with
  | nil => exact h
  | cons entry table ih =>
    obtain ⟨text, symbol⟩ := entry
    unfold longest at h ⊢
    simp only [List.isPrefixOf_iff_prefix] at h ⊢
    have hfront : front <+: front ++ tail := List.prefix_append front tail
    split at h
    · rename_i hstart
      cases h
      rw [if_pos (List.prefix_of_prefix_length_le hstart hfront hle)]
      rfl
    · rename_i hstart
      rw [if_neg fun hmore => hstart (hmore.trans hfront)]
      exact ih h

theorem operators_unbroken {alone : Symbol} {table : List (List Char × Symbol)}
    (h : operators c = some (alone, table)) : ∀ entry ∈ table, ∀ d ∈ entry.1, d ∉ breaks := by
  have hall : (table.all fun entry => entry.1.all fun d => !breaks.contains d) = true := by
    unfold operators at h
    split at h <;> first | (cases h; decide) | cases h
  intro entry hentry d hd hbreak
  have hnot := List.all_eq_true.mp (List.all_eq_true.mp hall entry hentry) d hd
  rw [List.contains_iff_mem.mpr hbreak] at hnot
  cases hnot

/-- An operator is read in a longer text that goes on with a semicolon or white space. -/
theorem longest_append {front tail : List Char} {alone : Symbol}
    {table : List (List Char × Symbol)}
    (htable : ∀ entry ∈ table, ∀ d ∈ entry.1, d ∉ breaks)
    (hbreak : ∀ t ∈ tail.head?, t ∈ breaks)
    (h : longest alone table front = .ok (token, extra)) :
    longest alone table (front ++ tail) = .ok (token, extra) ∧ extra ≤ front.length := by
  induction table with
  | nil => cases h; exact ⟨rfl, Nat.zero_le _⟩
  | cons entry table ih =>
    obtain ⟨text, symbol⟩ := entry
    unfold longest at h ⊢
    simp only [List.isPrefixOf_iff_prefix] at h ⊢
    split at h
    · rename_i hstart
      cases h
      rw [if_pos (hstart.trans (List.prefix_append front tail))]
      exact ⟨rfl, hstart.length_le⟩
    · rename_i hstart
      have hlong : ¬text <+: front ++ tail := fun hmore => by
        rcases tail with _ | ⟨t, tail⟩
        · exact hstart (by rwa [List.append_nil] at hmore)
        · rcases Nat.lt_or_ge front.length text.length with hlt | hle
          · -- The operator would hold the character that follows the text.
            obtain ⟨rest, hrest⟩ := hmore
            have hnext : (text ++ rest)[front.length]? = (front ++ t :: tail)[front.length]? :=
              hrest ▸ rfl
            rw [List.getElem?_append_left hlt, List.getElem?_append_right (Nat.le_refl _),
              Nat.sub_self] at hnext
            exact htable _ List.mem_cons_self t (List.mem_of_getElem? hnext) (hbreak t rfl)
          · exact hstart (List.prefix_of_prefix_length_le hmore (List.prefix_append front _) hle)
      rw [if_neg hlong]
      exact ih (fun entry hmem => htable entry (List.mem_cons_of_mem _ hmem)) h

end Lexer

end QueryBuild.Query

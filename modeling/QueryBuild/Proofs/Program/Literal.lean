import Mathlib.Data.List.Chain
import QueryBuild.Program.CppLiteral
import QueryBuild.Proofs.Program.CppReading
/-!
# Encoded texts as C++ reads them

The literals that a text is encoded as are read as the text, wherever a literal may stand. No
character of the text ends a literal, becomes part of a trigraph or joins two lines.
-/

namespace QueryBuild

namespace Cpp

/-! ### Reading pieces -/

theorem feed_append (mode : Mode) (front back : List Char) :
    feed mode (front ++ back) =
      ((feed mode front).1 ++ (feed (feed mode front).2 back).1,
        (feed (feed mode front).2 back).2) := by
  induction front generalizing mode with
  | nil => rfl
  | cons c front ih =>
    rw [List.cons_append, feed, feed]
    dsimp only
    rw [ih, List.append_assoc]

/-- No trigraph starts with two characters, and they join no lines. -/
def Apart (a b : Char) : Prop :=
  ¬ (a = '?' ∧ b = '?') ∧ ¬ (a = '\\' ∧ b = '\n')

instance (a b : Char) : Decidable (Apart a b) :=
  inferInstanceAs (Decidable (_ ∧ _))

theorem replaceTrigraphs_of_isChain {text : List Char} (h : text.IsChain Apart) :
    replaceTrigraphs text = text := by
  fun_induction replaceTrigraphs text with
  | case1 c rest meant hmeant ih =>
    rw [List.isChain_cons_cons] at h
    exact absurd ⟨rfl, rfl⟩ h.1.1
  | case2 c rest hnone ih =>
    rw [List.isChain_cons_cons] at h
    exact absurd ⟨rfl, rfl⟩ h.1.1
  | case3 c rest hnot ih => rw [ih h.tail]
  | case4 => rfl

theorem joinLines_of_isChain {text : List Char} (h : text.IsChain Apart) :
    joinLines text = text := by
  fun_induction joinLines text with
  | case1 rest ih =>
    rw [List.isChain_cons_cons] at h
    exact absurd ⟨rfl, rfl⟩ h.1.2
  | case2 c rest hnot ih => rw [ih h.tail]
  | case3 => rfl

theorem isChain_append {front back : List Char} (hfront : front.IsChain Apart)
    (hback : back.IsChain Apart)
    (hbetween : (∀ a ∈ front.getLast?, a ≠ '?' ∧ a ≠ '\\') ∨
      ∀ b ∈ back.head?, b ≠ '?' ∧ b ≠ '\n') : (front ++ back).IsChain Apart := by
  refine List.isChain_append.mpr ⟨hfront, hback, fun a ha b hb => ?_⟩
  rcases hbetween with hleft | hright
  · obtain ⟨hmark, hslash⟩ := hleft a ha
    exact ⟨fun h => hmark h.1, fun h => hslash h.1⟩
  · obtain ⟨hmark, hend⟩ := hright b hb
    exact ⟨fun h => hmark h.2, fun h => hend h.2⟩

theorem feed_closed (text : List Char) {c : Char} (hc : isWordChar c = false) (rest : List Char) :
    feed (.closed text) (c :: rest) =
      (.literal text :: (feed .between (c :: rest)).1, (feed .between (c :: rest)).2) := by
  have hclosed : step (.closed text) c = ([.literal text], .continued c) := by
    rw [step, if_neg (by simp [hc])]
  have hbetween : step .between c = ([], .continued c) := rfl
  rw [feed, feed, hclosed, hbetween]
  rfl

/-! ### Adjacent literals -/

def Token.isLiteral : Token → Bool
  | .literal _ => true
  | _ => false

theorem joinLiterals_cons {token : Token} (h : token.isLiteral = false) (rest : List Token) :
    joinLiterals (token :: rest) = token :: joinLiterals rest := by
  cases token with
  | literal text => cases h
  | word text => rfl
  | symbol text => rfl
  | directive text => rfl

theorem joinLiterals_ne_nil {tokens : List Token} (h : tokens ≠ []) : joinLiterals tokens ≠ [] := by
  fun_cases joinLiterals tokens with
  | case1 => exact absurd rfl h
  | case2 => simp
  | case3 => simp
  | case4 => simp

/-- Literals on both sides of another token have nothing to do with each other. -/
theorem joinLiterals_split (front : List Token) {token : Token} (h : token.isLiteral = false)
    (rest : List Token) :
    joinLiterals (front ++ token :: rest) = joinLiterals (front ++ [token]) ++ joinLiterals rest := by
  induction front with
  | nil =>
    rw [List.nil_append, List.nil_append, joinLiterals_cons h, joinLiterals_cons h]
    rfl
  | cons first front ih =>
    cases first with
    | literal text =>
      rw [List.cons_append, List.cons_append, joinLiterals, joinLiterals, ih]
      cases hfront : joinLiterals (front ++ [token]) with
      | nil => exact absurd hfront (joinLiterals_ne_nil (by simp))
      | cons second more => cases second <;> rfl
    | word text => simp only [List.cons_append, joinLiterals, ih]
    | symbol text => simp only [List.cons_append, joinLiterals, ih]
    | directive text => simp only [List.cons_append, joinLiterals, ih]

theorem joinLiterals_literals (front : List (List Char)) (last : List Char) {rest : List Token}
    (h : ∀ token ∈ rest.head?, token.isLiteral = false) :
    joinLiterals (front.map .literal ++ .literal last :: rest) =
      .literal (front.flatten ++ last) :: joinLiterals rest := by
  induction front with
  | nil =>
    rw [List.map_nil, List.nil_append, joinLiterals]
    cases rest with
    | nil => rfl
    | cons token rest =>
      have htoken := h token rfl
      rw [joinLiterals_cons htoken]
      cases token with
      | literal text => cases htoken
      | word text => rfl
      | symbol text => rfl
      | directive text => rfl
  | cons text front ih =>
    rw [List.map_cons, List.cons_append, joinLiterals, ih]
    simp only [List.flatten_cons, List.append_assoc]

end Cpp

namespace CppLiteral

open Cpp

/-- An encoded text consists of the literals of lines, which are together the text. -/
theorem exists_lines_encodeChars (text : List Char) :
    ∃ (line : List Char) (lines : List (List Char)), (line :: lines).flatten = text ∧
      encodeChars text = List.intercalate separator ((line :: lines).map encodeLine) := by
  have hwhole := Text.flatten_splitAfter (· == '\n') text
  rw [encodeChars]
  cases hlines : Text.splitAfter (· == '\n') text with
  | nil =>
    rw [hlines] at hwhole
    exact ⟨[], [], hwhole, by simp⟩
  | cons line lines =>
    rw [hlines] at hwhole
    exact ⟨line, lines, hwhole, rfl⟩

/-! ### Escapes -/

theorem octalDigit?_octalDigit (n : Nat) : octalDigit? (octalDigit n) = some (n % 8) := by
  have hall : ∀ d < 8, octalDigit? (Char.ofNat (48 + d)) = some d := by decide
  exact hall (n % 8) (Nat.mod_lt n (by decide))

theorem simpleEscape?_octalDigit (n : Nat) : simpleEscape? (octalDigit n) = none := by
  have hall : ∀ d < 8, simpleEscape? (Char.ofNat (48 + d)) = none := by decide
  exact hall (n % 8) (Nat.mod_lt n (by decide))

theorem feed_octalEscape (text : List Char) {n : Nat} (hn : n < 128) :
    feed (.literal text) (octalEscape n) = ([], .literal (text ++ [Char.ofNat n])) := by
  have hopen : step (.literal text) '\\' = ([], .escape text) := rfl
  have hfirst : step (.escape text) (octalDigit (n / 64)) = ([], .octal text (n / 64 % 8) 1) := by
    rw [step, simpleEscape?_octalDigit, octalDigit?_octalDigit]
  have hsecond : step (.octal text (n / 64 % 8) 1) (octalDigit (n / 8)) =
      ([], .octal text (8 * (n / 64 % 8) + n / 8 % 8) 2) := by
    rw [step, octalDigit?_octalDigit]
    rfl
  have hthird : step (.octal text (8 * (n / 64 % 8) + n / 8 % 8) 2) (octalDigit n) =
      ([], .literal (text ++ [Char.ofNat n])) := by
    have hvalue : 8 * (8 * (n / 64 % 8) + n / 8 % 8) + n % 8 = n := by omega
    rw [step, octalDigit?_octalDigit]
    dsimp only
    rw [hvalue, if_pos (by decide), Mode.escaped, if_pos hn]
  rw [octalEscape, feed, hopen, feed, hfirst, feed, hsecond, feed, hthird]
  rfl

theorem lt_of_isControl {c : Char} (h : isControl c = true) : c.toNat < 128 := by
  simp only [isControl, Bool.or_eq_true, decide_eq_true_eq, beq_iff_eq] at h
  omega

/-- Every character of a text is read as itself. -/
theorem feed_escape (text : List Char) (c : Char) :
    feed (.literal text) (escape c) = ([], .literal (text ++ [c])) := by
  unfold escape
  split
  · rfl
  · rfl
  · rfl
  · rfl
  · rfl
  · rfl
  · rename_i hslash hquote hline hreturn htab hmark
    split
    · rename_i hcontrol
      rw [feed_octalEscape text (lt_of_isControl hcontrol), Char.ofNat_toNat]
    · have hne : ∀ special, (c = special → False) → ¬ (c == special) = true :=
        fun special hnot heq => hnot (beq_iff_eq.mp heq)
      have hinside : Mode.inLiteral text c = .literal (text ++ [c]) := by
        rw [Mode.inLiteral, if_neg (hne _ hquote), if_neg (hne _ hslash), if_neg (hne _ hline)]
      rw [feed, step, hinside]
      rfl

theorem feed_flatMap_escape (text line : List Char) :
    feed (.literal text) (line.flatMap escape) = ([], .literal (text ++ line)) := by
  induction line generalizing text with
  | nil => simp [feed]
  | cons c line ih =>
    rw [List.flatMap_cons, feed_append, feed_escape]
    dsimp only
    rw [ih, List.append_assoc]
    rfl

theorem feed_encodeLine {mode : Mode} (hmode : mode = .fresh ∨ mode = .between)
    (line : List Char) : feed mode (encodeLine line) = ([], .closed line) := by
  have hopen : step mode '"' = ([], .literal []) := by
    rcases hmode with rfl | rfl
    · rfl
    · rfl
  rw [encodeLine, List.cons_append, feed, hopen, feed_append, feed_flatMap_escape]
  rfl

/-- The literals of lines are read as the lines; the last one is not yet done. -/
theorem feed_lines {mode : Mode} (hmode : mode = .fresh ∨ mode = .between)
    (line : List Char) (lines : List (List Char)) :
    ∃ (front : List (List Char)) (last : List Char),
      feed mode (List.intercalate separator ((line :: lines).map encodeLine)) =
        (front.map .literal, .closed last) ∧ front.flatten ++ last = (line :: lines).flatten := by
  induction lines generalizing mode line with
  | nil => exact ⟨[], line, by simpa [List.intercalate] using feed_encodeLine hmode line, by simp⟩
  | cons second lines ih =>
    obtain ⟨front, last, hfeed, hflatten⟩ := ih (Or.inl rfl) second
    have hseparator : feed (.closed line) separator = ([.literal line], .fresh) := by
      have hrest : feed .between separator = ([], .fresh) := by decide
      have hword : isWordChar '\n' = false := by decide
      have hcut : separator = '\n' :: "        ".toList := by decide
      rw [hcut] at hrest ⊢
      rw [feed_closed line hword, hrest]
    have hmore : (second :: lines).map encodeLine ≠ [] := by simp
    refine ⟨line :: front, last, ?_, ?_⟩
    · rw [List.map_cons, List.intercalate_cons_of_ne_nil hmore, feed_append,
        feed_append, feed_encodeLine hmode line]
      dsimp only
      rw [hseparator]
      dsimp only
      rw [hfeed]
      rfl
    · rw [List.flatten_cons, List.append_assoc, hflatten]
      rfl

theorem feed_encodeChars {mode : Mode} (hmode : mode = .fresh ∨ mode = .between)
    (text : List Char) :
    ∃ (front : List (List Char)) (last : List Char),
      feed mode (encodeChars text) = (front.map .literal, .closed last) ∧
        front.flatten ++ last = text := by
  obtain ⟨line, lines, rfl, hlines⟩ := exists_lines_encodeChars text
  rw [hlines]
  exact feed_lines hmode line lines

/-- The literals of a text in front of something else are read as pieces of the text. -/
theorem feed_encodeChars_append {mode : Mode} (hmode : mode = .fresh ∨ mode = .between)
    (text : List Char) {c : Char} (hc : isWordChar c = false) (rest : List Char) :
    ∃ (front : List (List Char)) (last : List Char), front.flatten ++ last = text ∧
      feed mode (encodeChars text ++ c :: rest) =
        (front.map .literal ++ .literal last :: (feed .between (c :: rest)).1,
          (feed .between (c :: rest)).2) := by
  obtain ⟨front, last, hfeed, hwhole⟩ := feed_encodeChars hmode text
  refine ⟨front, last, hwhole, ?_⟩
  rw [feed_append, hfeed]
  dsimp only
  rw [feed_closed last hc]

/-! ### Trigraphs and joined lines -/

theorem isChain_escape (c : Char) :
    (escape c).IsChain Apart ∧ ∀ a ∈ (escape c).head?, a ≠ '?' ∧ a ≠ '\n' := by
  unfold escape
  split
  · exact ⟨by decide, by rintro _ ⟨⟩; decide⟩
  · exact ⟨by decide, by rintro _ ⟨⟩; decide⟩
  · exact ⟨by decide, by rintro _ ⟨⟩; decide⟩
  · exact ⟨by decide, by rintro _ ⟨⟩; decide⟩
  · exact ⟨by decide, by rintro _ ⟨⟩; decide⟩
  · exact ⟨by decide, by rintro _ ⟨⟩; decide⟩
  · rename_i hslash hquote hline hreturn htab hmark
    split
    · have hdigit : ∀ n a, Apart a (octalDigit n) := by
        have hall : ∀ d < 8, Char.ofNat (48 + d) ≠ '?' ∧ Char.ofNat (48 + d) ≠ '\n' := by decide
        intro n a
        obtain ⟨hmark, hend⟩ := hall (n % 8) (Nat.mod_lt n (by decide))
        exact ⟨fun h => hmark h.2, fun h => hend h.2⟩
      refine ⟨?_, by simp [octalEscape]⟩
      simp [octalEscape, hdigit]
    · exact ⟨List.isChain_singleton c, by simpa using ⟨hmark, hline⟩⟩

theorem isChain_flatMap_escape (line : List Char) :
    (line.flatMap escape).IsChain Apart ∧
      ∀ a ∈ (line.flatMap escape).head?, a ≠ '?' ∧ a ≠ '\n' := by
  induction line with
  | nil => exact ⟨List.isChain_nil, by simp⟩
  | cons c line ih =>
    obtain ⟨hchain, hhead⟩ := isChain_escape c
    rw [List.flatMap_cons]
    refine ⟨isChain_append hchain ih.1 (Or.inr ih.2), fun a ha => ?_⟩
    cases hescape : escape c with
    | nil =>
      rw [hescape] at ha
      exact ih.2 a ha
    | cons first rest =>
      rw [hescape] at ha hhead
      exact hhead a ha

theorem isChain_encodeLine (line : List Char) : (encodeLine line).IsChain Apart := by
  obtain ⟨hchain, -⟩ := isChain_flatMap_escape line
  have hend : (line.flatMap escape ++ ['"']).IsChain Apart :=
    isChain_append hchain (List.isChain_singleton _) (Or.inr (by simp))
  rw [encodeLine, List.cons_append, ← List.singleton_append]
  exact isChain_append (List.isChain_singleton _) hend (Or.inl (by simp))

theorem getLast?_encodeLine (line : List Char) : (encodeLine line).getLast? = some '"' := by
  rw [encodeLine, List.cons_append, ← List.singleton_append, ← List.append_assoc,
    List.getLast?_concat]

theorem isChain_lines (line : List Char) (lines : List (List Char)) :
    let text := List.intercalate separator ((line :: lines).map encodeLine)
    text.IsChain Apart ∧ text.getLast? = some '"' := by
  dsimp only
  induction lines generalizing line with
  | nil =>
    rw [List.map_singleton, List.intercalate_singleton]
    exact ⟨isChain_encodeLine line, getLast?_encodeLine line⟩
  | cons second lines ih =>
    obtain ⟨hchain, hlast⟩ := ih second
    have hmore : (second :: lines).map encodeLine ≠ [] := by simp
    have hfront : (encodeLine line ++ separator).IsChain Apart := by
      refine isChain_append (isChain_encodeLine line) (by decide) (Or.inl ?_)
      rw [getLast?_encodeLine]
      simp
    rw [List.map_cons, List.intercalate_cons_of_ne_nil hmore]
    refine ⟨isChain_append hfront hchain (Or.inl ?_), ?_⟩
    · rw [List.getLast?_append_of_ne_nil _ (by decide)]
      rintro _ ⟨⟩
      decide
    · rw [List.getLast?_append, hlast]
      rfl

theorem head?_encodeChars (text : List Char) : (encodeChars text).head? = some '"' := by
  obtain ⟨line, lines, -, hlines⟩ := exists_lines_encodeChars text
  rw [hlines]
  cases lines with
  | nil => rfl
  | cons second lines => rfl

theorem isChain_encodeChars (text : List Char) :
    (encodeChars text).IsChain Apart ∧ (encodeChars text).getLast? = some '"' := by
  obtain ⟨line, lines, -, hlines⟩ := exists_lines_encodeChars text
  rw [hlines]
  exact isChain_lines line lines

end CppLiteral

end QueryBuild

import QueryBuild.Proofs.Query.Literal
import QueryBuild.Proofs.Query.Operator
/-!
# Tokens of a text that is cut off

A text that is cut off in front of white space, a semicolon or a comment has the tokens that stand
in front of the cut. It keeps them in front of other white space, unless a comment ends only where
the text does.
-/

namespace QueryBuild.Query

/-- The start of a token that separates or ends statements, or no text at all. -/
inductive Ends : List Char → Prop
  | nil : Ends []
  | char {c : Char} (rest : List Char) (h : c ∈ breaks) : Ends (c :: rest)
  | lineComment (rest : List Char) : Ends ('-' :: '-' :: rest)
  | blockComment (rest : List Char) : Ends ('/' :: '*' :: rest)

theorem Ends.head_mem {text : List Char} (h : Ends text) :
    ∀ c ∈ text.head?, c ∈ breaks ++ ['-', '/'] := by
  cases h with
  | nil => nofun
  | char rest h => rintro _ ⟨⟩; exact List.mem_append_left ['-', '/'] h
  | lineComment => rintro _ ⟨⟩; decide
  | blockComment => rintro _ ⟨⟩; decide

theorem Ends.head_false {text : List Char} (h : Ends text) {p : Char → Bool}
    (hp : (breaks ++ ['-', '/']).any p = false) : ∀ c ∈ text.head?, p c = false :=
  fun c hc => List.any_eq_false.mp hp c (h.head_mem c hc) |> eq_false_of_ne_true

namespace Lexer

open Literal

variable {front tail : List Char} {c : Char} {token : Token} {extra : Nat}

theorem word_of_append (hend : Ends tail) (start : List Char) :
    word .duckdb start (front ++ tail) = word .duckdb start front := by
  rw [word, word, takeWhile_append_of_head (hend.head_false (by decide))]

/-- No digit follows a hyphen that starts a comment, so that it is no sign of an exponent. -/
theorem no_digit_after_sign (hend : Ends tail) :
    (tail.drop ((tail.takeWhile fun c => c == '+' || c == '-').take 1).length).takeWhile
      Char.isDigit = [] := by
  cases hend with
  | nil => rfl
  | lineComment => rfl
  | blockComment => rfl
  | char rest h =>
    simp only [breaks, List.mem_cons, List.not_mem_nil, or_false] at h
    rcases h with rfl | rfl | rfl | rfl | rfl <;> rfl

theorem exponent_of_append (hend : Ends tail) : exponent (front ++ tail) = exponent front := by
  rcases front with _ | ⟨e, _ | ⟨c, more⟩⟩
  · rcases tail with _ | ⟨t, tail⟩
    · rfl
    · have he := hend.head_false (p := fun t => t == 'e' || t == 'E') (by decide) t rfl
      rw [List.nil_append, exponent, he]
      rfl
  · rw [List.singleton_append, exponent, exponent]
    split
    · simp only [no_digit_after_sign hend]
      rfl
    · rfl
  · rw [List.cons_append, List.cons_append, exponent, exponent]
    have hsign : ((c :: (more ++ tail)).takeWhile fun c => c == '+' || c == '-').take 1 =
        ((c :: more).takeWhile fun c => c == '+' || c == '-').take 1 := by
      rw [List.takeWhile_cons, List.takeWhile_cons]
      split <;> rfl
    have hdigit : ∀ t ∈ tail.head?, t.isDigit = false := hend.head_false (by decide)
    have hle : (((c :: more).takeWhile fun c => c == '+' || c == '-').take 1).length ≤
        (c :: more).length :=
      (List.take_prefix _ _).length_le.trans (List.takeWhile_prefix _).length_le
    simp only [hsign]
    rw [← List.cons_append, List.drop_append_of_le_length hle, takeWhile_append_of_head hdigit]

theorem head?_of_append {q : Char} (hq : ∀ t ∈ tail.head?, (t == q) = false) :
    ((front ++ tail).head? == some q) = (front.head? == some q) := by
  rcases front with _ | ⟨c, front⟩
  · rcases tail with _ | ⟨t, tail⟩
    · rfl
    · exact hq t rfl
  · rfl

theorem drop_of_append {start : List Char} (h : start <+: front) :
    (front ++ tail).drop start.length = front.drop start.length ++ tail :=
  List.drop_append_of_le_length h.length_le

theorem append_prefix_of_drop {start more : List Char} (h : start <+: front)
    (hmore : more <+: front.drop start.length) : start ++ more <+: front := by
  obtain ⟨rest, hrest⟩ := hmore
  exact ⟨rest, by rw [List.append_assoc, hrest, List.prefix_iff_eq_append.mp h]⟩

theorem exponent_starts (text : List Char) : exponent text <+: text := by
  rcases text with _ | ⟨e, more⟩
  · exact List.nil_prefix
  · unfold exponent
    dsimp only
    split
    · split
      · exact List.nil_prefix
      · rw [List.cons_append]
        refine List.cons_prefix_cons.mpr ⟨rfl, append_prefix_of_drop ?_ (List.takeWhile_prefix _)⟩
        exact (List.take_prefix 1 _).trans (List.takeWhile_prefix _)
    · exact List.nil_prefix

/-- The digits that a text starts with, and a period among them. -/
def digits (text : List Char) : List Char :=
  let whole := text.takeWhile Char.isDigit
  let rest := text.drop whole.length
  let point := (rest.take 1).takeWhile (· == '.')
  whole ++ point ++ (rest.drop point.length).takeWhile Char.isDigit

theorem number_eq (text : List Char) :
    number text =
      let whole := text.takeWhile Char.isDigit
      let rest := text.drop whole.length
      if whole == ['0'] && rest.head? == some 'x' then
        let hexadecimal := (rest.drop 1).takeWhile fun c => (hexValue? c).isSome
        .ok (.string .hexadecimal (String.ofList hexadecimal), 1 + hexadecimal.length)
      else if digits text == ['.'] then sym .period 0
      else
        let all := digits text ++ exponent (text.drop (digits text).length)
        let long := (text.drop all.length).head? == some 'L'
        .ok (.number (String.ofList all) long, all.length - 1 + (if long then 1 else 0)) :=
  rfl

theorem digits_starts (text : List Char) : digits text <+: text := by
  have hwhole := List.takeWhile_prefix (p := Char.isDigit) (l := text)
  unfold digits
  dsimp only
  generalize text.takeWhile Char.isDigit = whole at hwhole ⊢
  have hpoint : ((text.drop whole.length).take 1).takeWhile (· == '.') <+: text.drop whole.length :=
    (List.takeWhile_prefix _).trans (List.take_prefix 1 _)
  rw [List.append_assoc]
  exact append_prefix_of_drop hwhole (append_prefix_of_drop hpoint (List.takeWhile_prefix _))

theorem digits_of_append (hend : Ends tail) : digits (front ++ tail) = digits front := by
  have hdigit : ∀ t ∈ tail.head?, t.isDigit = false := hend.head_false (by decide)
  have hpoint : ∀ t ∈ tail.head?, (t == '.') = false := hend.head_false (by decide)
  have hwhole := List.takeWhile_prefix (p := Char.isDigit) (l := front)
  unfold digits
  simp only [takeWhile_append_of_head hdigit]
  generalize front.takeWhile Char.isDigit = whole at hwhole ⊢
  have hdot : ((front.drop whole.length).take 1).takeWhile (· == '.') <+: front.drop whole.length :=
    (List.takeWhile_prefix _).trans (List.take_prefix 1 _)
  rw [drop_of_append hwhole, takeWhile_take_append hpoint, drop_of_append hdot,
    takeWhile_append_of_head hdigit]

theorem number_of_append (hend : Ends tail) : number (front ++ tail) = number front := by
  have hdigit : ∀ t ∈ tail.head?, t.isDigit = false := hend.head_false (by decide)
  have hhex : ∀ t ∈ tail.head?, (hexValue? t).isSome = false := hend.head_false (by decide)
  have hx : ∀ t ∈ tail.head?, (t == 'x') = false := hend.head_false (by decide)
  have hlong : ∀ t ∈ tail.head?, (t == 'L') = false := hend.head_false (by decide)
  have hwhole := List.takeWhile_prefix (p := Char.isDigit) (l := front)
  rw [number_eq, number_eq, digits_of_append hend, takeWhile_append_of_head hdigit]
  dsimp only
  rw [drop_of_append hwhole, head?_of_append hx]
  generalize front.drop (front.takeWhile Char.isDigit).length = rest
  split
  · rename_i hhexadecimal
    rcases rest with _ | ⟨x, rest⟩
    · simp at hhexadecimal
    · rw [List.cons_append, List.drop_one, List.tail_cons, List.drop_one, List.tail_cons,
        takeWhile_append_of_head hhex]
  · have hdigits := digits_starts front
    rw [drop_of_append hdigits, exponent_of_append hend,
      drop_of_append (append_prefix_of_drop hdigits (exponent_starts _)), head?_of_append hlong]

/-- What starts a text is what starts a longer one, as far as it ends within the text. -/
def Cut (limit : Nat) (longer shorter : Scan) : Prop :=
  ∀ token extra, shorter = .ok (token, extra) ↔ longer = .ok (token, extra) ∧ extra ≤ limit

theorem Cut.same {limit : Nat} {result : Scan}
    (h : ∀ {token extra}, result = .ok (token, extra) → extra ≤ limit) : Cut limit result result :=
  fun _ _ => ⟨fun hresult => ⟨hresult, h hresult⟩, And.left⟩

theorem Cut.of_within {α : Type} {size : α → Nat} {limit offset : Nat} {longer shorter : Option α}
    {f g : α → Token} {e e' : Defect} (h : Within size limit longer shorter)
    (hsame : ∀ a, size a ≤ limit → f a = g a) :
    Cut (offset + limit) (longer.elim (.error e) fun a => .ok (f a, offset + size a))
      (shorter.elim (.error e') fun a => .ok (g a, offset + size a)) := by
  intro token extra
  constructor
  · intro hshort
    cases hs : shorter with
    | none => rw [hs] at hshort; cases hshort
    | some a =>
      rw [hs] at hshort
      cases hshort
      obtain ⟨hlong, hle⟩ := (h a).mp hs
      rw [hlong, Option.elim_some, hsame a hle]
      exact ⟨rfl, Nat.add_le_add_left hle offset⟩
  · rintro ⟨hlong, hle⟩
    cases hl : longer with
    | none => rw [hl] at hlong; cases hlong
    | some a =>
      rw [hl] at hlong
      cases hlong
      have hle' := Nat.le_of_add_le_add_left hle
      rw [(h a).mpr ⟨hl, hle'⟩, Option.elim_some, hsame a hle']

theorem literal_eq (quotation : Quotation) (quote : Char) (backslash : Bool) (offset : Nat)
    (text : List Char) :
    literal quotation quote backslash offset text =
      (quoted quote backslash text).elim (.error ⟨"Unterminated string literal", offset⟩)
        fun found => .ok (.string quotation (String.ofList found.1), offset + found.2) := by
  rw [literal]
  rcases quoted quote backslash text with _ | ⟨value, count⟩ <;> rfl

theorem literal_append {quotation : Quotation} {quote : Char} {backslash : Bool} {offset : Nat}
    (hquote : ∀ c ∈ tail.head?, c ≠ quote) :
    Cut (offset + front.length) (literal quotation quote backslash offset (front ++ tail))
      (literal quotation quote backslash offset front) := by
  rw [literal_eq, literal_eq]
  exact .of_within (quoted_append hquote) fun _ _ => rfl

theorem quotedWord_append {quote : Char} (hquote : ∀ c ∈ tail.head?, c ≠ quote) :
    Cut front.length (quotedWord quote (front ++ tail)) (quotedWord quote front) := by
  have heq (text : List Char) : quotedWord quote text = (quoted quote false text).elim
      (.error ⟨"Expected close delimiter '" ++ String.singleton quote ++ "' before EOF.", 0⟩)
        fun found => .ok (.word (String.ofList found.1) (some quote), 0 + found.2) := by
    rw [quotedWord]
    rcases quoted quote false text with _ | ⟨value, count⟩
    · rfl
    · rw [Option.elim_some, Nat.zero_add]
  rw [heq, heq, ← Nat.zero_add front.length]
  exact .of_within (quoted_append hquote) fun _ _ => rfl

theorem blockComment_append :
    Cut (1 + front.length) (blockComment (front ++ tail)) (blockComment front) := by
  have heq (text : List Char) : blockComment text = (Literal.blockComment ' ' 1 text).elim
      (.error ⟨"Unexpected EOF while in a multi-line comment", text.length + 2⟩)
        fun count => .ok (.comment (String.ofList ('/' :: '*' :: text.take count)), 1 + id count) := by
    rw [blockComment]
    cases Literal.blockComment ' ' 1 text <;> rfl
  rw [heq, heq]
  exact .of_within Literal.blockComment_append fun count (hle : count ≤ front.length) => by
    rw [List.take_append_of_le_length hle]

theorem word_append (hend : Ends tail) :
    Cut front.length (word .duckdb [c] (front ++ tail)) (word .duckdb [c] front) := by
  rw [word_of_append hend]
  refine .same fun h => ?_
  cases h
  rw [List.length_singleton, Nat.sub_self, Nat.zero_add]
  exact (List.takeWhile_prefix _).length_le

theorem question_append (hend : Ends tail) :
    Cut front.length (question .duckdb (front ++ tail)) (question .duckdb front) := by
  have hduckdb : (Dialect.duckdb == .postgres) = false := rfl
  unfold question
  rw [hduckdb, takeWhile_append_of_head (hend.head_false (by decide))]
  refine .same fun h => ?_
  cases h
  exact (List.takeWhile_prefix _).length_le

theorem number_le {rest : List Char} (hstart : c ≠ 'L')
    (h : number (c :: rest) = .ok (token, extra)) : extra ≤ rest.length := by
  rw [number_eq] at h
  dsimp only at h
  split at h
  · rename_i hhexadecimal
    rw [Bool.and_eq_true, beq_iff_eq, beq_iff_eq] at hhexadecimal
    obtain ⟨more, hmore⟩ := List.head?_eq_some_iff.mp hhexadecimal.2
    have hhex := (List.takeWhile_prefix (p := fun c => (hexValue? c).isSome) (l := more)).length_le
    have hlength := congrArg List.length hmore
    rw [hhexadecimal.1, List.length_drop] at hlength
    rw [hmore] at h
    cases h
    simp only [List.length_cons, List.length_nil] at hlength ⊢
    rw [List.drop_one, List.tail_cons]
    omega
  split at h
  · cases h
    exact Nat.zero_le _
  · have hall := (append_prefix_of_drop (digits_starts (c :: rest)) (exponent_starts _)).length_le
    generalize digits (c :: rest) ++ exponent _ = all at hall h
    rw [List.length_cons] at hall
    cases h
    split
    · rename_i hlong
      -- The sign of a long number follows digits, so there are some.
      have hlt : all.length < (c :: rest).length := by
        rw [← Nat.not_le]
        intro hle
        rw [List.drop_eq_nil_of_le hle] at hlong
        cases hlong
      have hne : all.length ≠ 0 := fun hzero => by
        rw [hzero] at hlong
        exact hstart (Option.some.inj (eq_of_beq hlong))
      rw [List.length_cons] at hlt
      omega
    · omega

theorem number_append (hend : Ends tail) (hstart : c ≠ 'L') :
    Cut front.length (number (c :: (front ++ tail))) (number (c :: front)) := by
  rw [← List.cons_append, number_of_append hend]
  exact .same (number_le hstart)

/-- What a dollar sign and a tag start in a text of some length. -/
def tagged (length : Nat) (tag rest : List Char) : Scan :=
  match rest with
  | '$' :: more =>
    (tagQuoted tag none more).elim (.error ⟨"Unterminated dollar-quoted, expected $", length + 1⟩)
      fun count => .ok (.string (.dollar (String.ofList tag))
        (String.ofList (more.take (count - (tag.length + 2)))), tag.length + 1 + id count)
  | _ => .ok (.placeholder (String.ofList ('$' :: tag)), tag.length)

theorem tagged_append {length longer : Nat} {tag rest : List Char}
    (hnone : ∀ t ∈ tail.head?, (t == '$') = false) :
    Cut (tag.length + rest.length) (tagged longer tag (rest ++ tail)) (tagged length tag rest) := by
  have hplaceholder (limit : Nat) :
      Cut (tag.length + limit) (.ok (.placeholder (String.ofList ('$' :: tag)), tag.length))
        (.ok (.placeholder (String.ofList ('$' :: tag)), tag.length)) :=
    .same fun h => by cases h; exact Nat.le_add_right _ _
  rcases rest with _ | ⟨d, rest⟩
  · rcases tail with _ | ⟨t, tail⟩
    · exact hplaceholder 0
    · have ht : t ≠ '$' := by simpa using hnone t rfl
      rw [List.nil_append, tagged.eq_2 _ _ _ fun more h => ht (List.cons.inj h).1]
      exact hplaceholder 0
  · by_cases hd : d = '$'
    · subst hd
      rw [List.cons_append, tagged, tagged, List.length_cons, Nat.add_comm rest.length, ← Nat.add_assoc]
      exact .of_within tagQuoted_append fun count (hle : count ≤ rest.length) => by
        rw [List.take_append_of_le_length (by omega)]
    · have hd' (text : List Char) : ∀ more, d :: text = '$' :: more → False :=
        fun more h => hd (List.cons.inj h).1
      rw [List.cons_append, tagged.eq_2 _ _ _ (hd' _), tagged.eq_2 _ _ _ (hd' _)]
      exact hplaceholder _

theorem dollar_tagged {text : List Char} (h : ∀ more, text = '$' :: more → False) :
    dollar text = tagged text.length (text.takeWhile fun c => Text.isLetterOrNumeral c || c == '_')
      (text.drop (text.takeWhile fun c => Text.isLetterOrNumeral c || c == '_').length) := by
  rw [dollar.eq_2 _ h]
  generalize (text.takeWhile fun c => Text.isLetterOrNumeral c || c == '_') = tag
  generalize text.drop tag.length = rest
  split
  · rename_i more
    rw [tagged.eq_1]
    cases tagQuoted tag none more <;> rfl
  · rename_i hrest
    rw [tagged.eq_2 _ _ _ hrest]

theorem dollar_append (hend : Ends tail) :
    Cut front.length (dollar (front ++ tail)) (dollar front) := by
  have hnone : ∀ t ∈ tail.head?, (t == '$') = false := hend.head_false (by decide)
  have hword : ∀ t ∈ tail.head?, (Text.isLetterOrNumeral t || t == '_') = false :=
    hend.head_false (by decide)
  by_cases hc : front.head? = some '$'
  · obtain ⟨front, rfl⟩ := List.head?_eq_some_iff.mp hc
    have heq (text : List Char) : dollar ('$' :: text) = (dollarQuoted text).elim
        (.error ⟨"Unterminated dollar-quoted string", text.length + 2⟩) fun count =>
          .ok (.string (.dollar "") (String.ofList (text.take (count - 2))), 1 + id count) := by
      rw [dollar]
      cases dollarQuoted text <;> rfl
    rw [List.cons_append, heq, heq, List.length_cons, Nat.add_comm]
    exact .of_within dollarQuoted_append fun count (hle : count ≤ front.length) => by
      rw [List.take_append_of_le_length (by omega)]
  · have hlong (more : List Char) (hmore : front ++ tail = '$' :: more) : False := by
      have hhead : ((front ++ tail).head? == some '$') = (front.head? == some '$') :=
        head?_of_append hnone
      rw [hmore] at hhead
      exact hc (eq_of_beq hhead.symm)
    have hshort (more : List Char) (hmore : front = '$' :: more) : False :=
      hc (by rw [hmore]; rfl)
    have htag := List.takeWhile_prefix (p := fun c => Text.isLetterOrNumeral c || c == '_')
      (l := front)
    have hlength : (front.takeWhile fun c => Text.isLetterOrNumeral c || c == '_').length +
        (front.drop (front.takeWhile fun c => Text.isLetterOrNumeral c || c == '_').length).length =
          front.length := by
      rw [List.length_drop, Nat.add_sub_cancel' htag.length_le]
    rw [dollar_tagged hlong, dollar_tagged hshort, takeWhile_append_of_head hword,
      drop_of_append htag]
    exact hlength ▸ tagged_append hnone

theorem lineComment_of_append (h : lineComment (front ++ tail) = .ok (token, extra))
    (hle : extra ≤ front.length) : lineComment front = .ok (token, extra) := by
  rcases tail with _ | ⟨t, tail⟩
  · rwa [List.append_nil] at h
  have hbody := List.takeWhile_prefix (p := (· != '\n')) (l := front)
  unfold lineComment at h ⊢
  rw [List.takeWhile_append] at h
  split at h
  · -- Without a line feed the comment takes all of the text, so that nothing could follow it.
    exfalso
    cases h
    by_cases ht : t = '\n'
    · rw [ht, List.takeWhile_cons_of_neg (by decide), List.append_nil, List.drop_left] at hle
      simp only [List.length_append, List.take_succ_cons, List.take_zero, List.length_singleton] at hle
      omega
    · rw [List.takeWhile_cons_of_pos (by simpa using ht)] at hle
      simp only [List.length_append, List.length_cons] at hle
      omega
  · rename_i hline
    generalize front.takeWhile (· != '\n') = body at hbody hline h ⊢
    obtain ⟨rest, rfl⟩ := hbody
    rcases rest with _ | ⟨c, rest⟩
    · simp at hline
    · simpa using h

/-- A comment that ends in front of the end of a text ends with a line feed. -/
theorem lineComment_append (h : lineComment front = .ok (token, extra)) (hlt : extra < front.length) :
    lineComment (front ++ tail) = .ok (token, extra) := by
  have hbody := List.takeWhile_prefix (p := (· != '\n')) (l := front)
  have hline : (front.takeWhile (· != '\n')).length < front.length := by
    cases h
    rw [List.length_append] at hlt
    omega
  unfold lineComment at h ⊢
  rw [List.takeWhile_append, if_neg (Nat.ne_of_lt hline)]
  generalize front.takeWhile (· != '\n') = body at hbody hline h ⊢
  obtain ⟨rest, rfl⟩ := hbody
  rcases rest with _ | ⟨d, rest⟩
  · simp at hline
  · simpa using h

/-- A literal with escapes; `rest` follows its opening quote. -/
def escapedLiteral (rest : List Char) : Scan :=
  match cQuoted rest with
  | some (value, count) => .ok (.string .escaped (String.ofList value), 1 + count)
  | none => .error ⟨"Unterminated encoded string literal", 0⟩

theorem escapedLiteral_append
    (htail : ∀ t ∈ tail.head?, (hexValue? t).isSome = false ∧ isOctal t = false ∧ t ≠ '\'') :
    Cut (1 + front.length) (escapedLiteral (front ++ tail)) (escapedLiteral front) := by
  have heq (text : List Char) : escapedLiteral text = (cQuoted text).elim
      (.error ⟨"Unterminated encoded string literal", 0⟩) fun found =>
        .ok (.string .escaped (String.ofList found.1), 1 + found.2) := by
    rw [escapedLiteral]
    rcases cQuoted text with _ | ⟨value, count⟩ <;> rfl
  rw [heq, heq]
  exact .of_within (cQuoted_append htail) fun _ _ => rfl

/-- The literals that a letter and a quote open in DuckDB. -/
def opened (c : Char) (rest : List Char) : Option Scan :=
  if c = 'n' ∨ c = 'N' then some (literal .national '\'' true 1 rest)
  else if c = 'x' ∨ c = 'X' then some (literal .hexadecimal '\'' true 1 rest)
  else if c = 'e' ∨ c = 'E' then some (escapedLiteral rest)
  else none

theorem prefixed_duckdb (rest : List Char) :
    prefixed .duckdb c rest =
      if rest.head? = some '\'' then opened c rest.tail else none := by
  have hbytes : Dialect.duckdb.byteStrings = false := rfl
  have hraw : Dialect.duckdb.rawStrings = false := rfl
  have hunicode : Dialect.duckdb.unicodeStrings = false := rfl
  unfold prefixed
  simp only [hbytes, hraw, hunicode, Bool.false_eq_true, if_false]
  rcases rest with _ | ⟨d, rest⟩
  · split <;> simp_all
  · unfold opened escapedLiteral
    by_cases hd : d = '\''
    · subst hd
      rcases hquoted : cQuoted rest with _ | ⟨value, count⟩ <;> split <;> simp_all
    · split <;> simp_all

theorem opened_append (hend : Ends tail) :
    (opened c (front ++ tail) = none ∧ opened c front = none) ∨
      ∃ longer shorter, opened c (front ++ tail) = some longer ∧ opened c front = some shorter ∧
        Cut (1 + front.length) longer shorter := by
  have hquote : ∀ t ∈ tail.head?, t ≠ '\'' := fun t ht => by
    simpa using hend.head_false (p := (· == '\'')) (by decide) t ht
  have hhex := hend.head_false (p := fun t => (hexValue? t).isSome) (by decide)
  have hoctal := hend.head_false (p := isOctal) (by decide)
  unfold opened
  split
  · exact .inr ⟨_, _, rfl, rfl, literal_append hquote⟩
  split
  · exact .inr ⟨_, _, rfl, rfl, literal_append hquote⟩
  split
  · exact .inr ⟨_, _, rfl, rfl,
      escapedLiteral_append fun t ht => ⟨hhex t ht, hoctal t ht, hquote t ht⟩⟩
  · exact .inl ⟨rfl, rfl⟩

/-- What a character without a meaning of its own starts in DuckDB: a word, a number, white space
or nothing. -/
def other (c : Char) (rest : List Char) : Scan :=
  if Dialect.duckdb.quotesIdentifier c then quotedWord c rest
  else if c.isDigit || c == '.' then number (c :: rest)
  else if Dialect.duckdb.startsIdentifier c then word .duckdb [c] rest
  else if Text.isBlank c then .ok (.space, 0)
  else .ok (.char c, 0)

/-- What a character starts in DuckDB that starts no operator and opens no literal. -/
def plain (c : Char) (rest : List Char) : Scan :=
  match c with
  | ' ' => .ok (.space, 0)
  | '\t' => .ok (.tab, 0)
  | '\n' => .ok (.newline, 0)
  | '\r' => .ok (.newline, if rest.head? == some '\n' then 1 else 0)
  | '\'' => literal .plain '\'' false 0 rest
  | '?' => question .duckdb rest
  | '$' => dollar rest
  | c => other c rest

theorem scan_plain {rest : List Char} (hop : operators c = none)
    (hopened : prefixed .duckdb c rest = none) : scan .duckdb c rest = plain c rest := by
  unfold scan
  rw [hopened]
  dsimp only
  split
  case h_33 =>
    rw [plain.eq_8] <;> first | assumption | rfl
  all_goals first
    | (cases hop; done)
    | rfl

theorem other_append (hend : Ends tail) :
    Cut front.length (other c (front ++ tail)) (other c front) := by
  unfold other
  split
  · rename_i hc
    refine quotedWord_append ?_
    rintro t ht rfl
    rw [hend.head_false (p := Dialect.duckdb.quotesIdentifier) (by decide) t ht] at hc
    cases hc
  split
  · rename_i hstart
    exact number_append hend (by rintro rfl; exact absurd hstart (by decide))
  split
  · exact word_append hend
  · split <;> exact .same fun h => by cases h; exact Nat.zero_le _

theorem plain_append (hend : Ends tail)
    (hfeed : c = '\r' → front = [] → tail.head? ≠ some '\n') :
    Cut front.length (plain c (front ++ tail)) (plain c front) := by
  have hquote : ∀ t ∈ tail.head?, t ≠ '\'' := fun t ht => by
    simpa using hend.head_false (p := (· == '\'')) (by decide) t ht
  unfold plain
  split
  case h_4 =>
    cases front with
    | nil =>
      have hnot : (tail.head? == some '\n') = false := beq_eq_false_iff_ne.mpr (hfeed rfl rfl)
      rw [List.nil_append, hnot]
      exact .same fun h => by cases h; exact Nat.le_refl 0
    | cons d front =>
      exact .same fun h => by
        cases h
        split
        · exact Nat.succ_le_succ (Nat.zero_le _)
        · exact Nat.zero_le _
  case h_5 =>
    have hliteral : Cut (0 + front.length) (literal .plain '\'' false 0 (front ++ tail))
        (literal .plain '\'' false 0 front) := literal_append hquote
    rwa [Nat.zero_add] at hliteral
  case h_6 => exact question_append hend
  case h_7 => exact dollar_append hend
  case h_8 => exact other_append hend
  all_goals exact .same fun h => by cases h; exact Nat.zero_le _

theorem scan_lineComment (rest : List Char) :
    scan .duckdb '-' ('-' :: rest) = lineComment ('-' :: rest) := rfl

theorem scan_blockComment (rest : List Char) :
    scan .duckdb '/' ('*' :: rest) = blockComment rest := rfl

theorem opensComment_cons {d : Char} {rest : List Char} :
    opensComment c (d :: rest) = true ↔ c = '-' ∧ d = '-' ∨ c = '/' ∧ d = '*' := by
  simp only [opensComment, List.head?_cons, Bool.or_eq_true, Bool.and_eq_true, beq_iff_eq,
    Option.some.injEq]

theorem prefixed_append (c : Char) (front : List Char) (hend : Ends tail) :
    (prefixed .duckdb c (front ++ tail) = none ∧ prefixed .duckdb c front = none) ∨
      ∃ longer shorter, prefixed .duckdb c (front ++ tail) = some longer ∧
        prefixed .duckdb c front = some shorter ∧ Cut front.length longer shorter := by
  have hquote : ∀ t ∈ tail.head?, (t == '\'') = false := hend.head_false (by decide)
  have hhead : (front ++ tail).head? = some '\'' ↔ front.head? = some '\'' := by
    rw [← beq_iff_eq, head?_of_append hquote, beq_iff_eq]
  rw [prefixed_duckdb, prefixed_duckdb]
  by_cases hstart : front.head? = some '\''
  · rw [if_pos (hhead.mpr hstart), if_pos hstart]
    obtain ⟨more, rfl⟩ := List.head?_eq_some_iff.mp hstart
    rw [List.cons_append, List.tail_cons, List.tail_cons, List.length_cons, Nat.add_comm]
    exact opened_append hend
  · rw [if_neg (mt hhead.mp hstart), if_neg hstart]
    exact .inl ⟨rfl, rfl⟩

theorem scan_opened {rest : List Char} {result : Scan}
    (h : prefixed .duckdb c rest = some result) : scan .duckdb c rest = result := by
  unfold scan
  rw [h]

/-- What a character starts: a literal, a comment, an operator or something plain. -/
theorem scan_cases {rest : List Char} {result : Scan} (h : scan .duckdb c rest = result) :
    (∃ more, rest = '\'' :: more ∧ opened c more = some result) ∨ opensComment c rest = true ∨
      (∃ alone table, operators c = some (alone, table) ∧ longest alone table rest = result) ∨
        plain c rest = result := by
  cases hopened : prefixed .duckdb c rest with
  | some found =>
    rw [scan_opened hopened] at h
    subst h
    rw [prefixed_duckdb] at hopened
    split at hopened
    · obtain ⟨more, rfl⟩ := List.head?_eq_some_iff.mp ‹_›
      exact .inl ⟨more, rfl, hopened⟩
    · cases hopened
  | none =>
    cases hop : operators c with
    | none => exact .inr (.inr (.inr (scan_plain hop hopened ▸ h)))
    | some entry =>
      cases hcomment : opensComment c rest with
      | true => exact .inr (.inl rfl)
      | false => exact .inr (.inr (.inl ⟨_, _, rfl, scan_operator hop hcomment ▸ h⟩))

/-- A comment starts in a text if it starts in a longer one and is read from the text. -/
theorem comment_of_append (hcomment : opensComment c (front ++ tail) = true)
    (h : scan .duckdb c (front ++ tail) = .ok (token, extra)) (hle : extra ≤ front.length) :
    scan .duckdb c front = .ok (token, extra) := by
  rcases front with _ | ⟨d, front⟩
  · exfalso
    rw [List.nil_append] at hcomment h
    rw [List.length_nil, Nat.le_zero] at hle
    subst hle
    rcases tail with _ | ⟨t, tail⟩
    · simp [opensComment] at hcomment
    · obtain ⟨rfl, rfl⟩ | ⟨rfl, rfl⟩ := opensComment_cons.mp hcomment
      · rw [scan_lineComment, lineComment] at h
        simp at h
      · rw [scan_blockComment, blockComment] at h
        split at h
        · simp at h
        · cases h
  · rw [List.cons_append] at hcomment h
    obtain ⟨rfl, rfl⟩ | ⟨rfl, rfl⟩ := opensComment_cons.mp hcomment
    · rw [scan_lineComment, ← List.cons_append] at h
      exact lineComment_of_append h hle
    · refine (blockComment_append token extra).mpr ⟨h, ?_⟩
      rwa [Nat.add_comm]

/-- The token that a text starts with is read whatever follows the text, as long as that starts
another token. -/
theorem scan_of_append (hend : Ends tail)
    (h : scan .duckdb c (front ++ tail) = .ok (token, extra)) (hle : extra ≤ front.length) :
    scan .duckdb c front = .ok (token, extra) := by
  obtain ⟨hlong, hshort⟩ | ⟨longer, shorter, hlong, hshort, hcut⟩ :=
    prefixed_append c front hend
  · cases hop : operators c with
    | some entry =>
      obtain ⟨alone, table⟩ := entry
      cases hcomment : opensComment c (front ++ tail) with
      | false =>
        have hcomment' : opensComment c front = false := by
          cases front with
          | nil => simp [opensComment]
          | cons d front => exact hcomment
        rw [scan_operator hop hcomment] at h
        rw [scan_operator hop hcomment']
        exact longest_of_append h hle
      | true => exact comment_of_append hcomment h hle
    | none =>
      rw [scan_plain hop hlong] at h
      rw [scan_plain hop hshort]
      refine (plain_append hend ?_ token extra).mpr ⟨h, hle⟩
      rintro rfl rfl hfeed
      rw [List.nil_append, plain, hfeed] at h
      cases h
      exact absurd hle (Nat.not_succ_le_zero 0)
  · rw [scan_opened hlong] at h
    rw [scan_opened hshort]
    exact (hcut token extra).mpr ⟨h, hle⟩

/-- A comment that ends in a text is read in a longer one, unless the end of the text ends it. -/
theorem comment_append (hcomment : opensComment c front = true)
    (h : scan .duckdb c front = .ok (token, extra))
    (hseparator : token.isSeparator = true → extra < front.length) :
    scan .duckdb c (front ++ tail) = .ok (token, extra) ∧ extra ≤ front.length := by
  rcases front with _ | ⟨d, front⟩
  · simp [opensComment] at hcomment
  obtain ⟨rfl, rfl⟩ | ⟨rfl, rfl⟩ := opensComment_cons.mp hcomment
  · rw [scan_lineComment] at h
    rw [List.cons_append, scan_lineComment, ← List.cons_append]
    have hlt : extra < ('-' :: front).length := hseparator (by cases h; rfl)
    exact ⟨lineComment_append h hlt, Nat.le_of_lt hlt⟩
  · have hcut : Cut (1 + front.length) (blockComment (front ++ tail)) (blockComment front) :=
      blockComment_append
    rw [Nat.add_comm] at hcut
    exact (hcut token extra).mp h

/-- The token that a text starts with is read in a longer text, unless it is a separator at the end
of the text. -/
theorem scan_append (hbreak : ∀ t ∈ tail.head?, t ∈ breaks)
    (h : scan .duckdb c front = .ok (token, extra))
    (hseparator : token.isSeparator = true → extra < front.length) :
    scan .duckdb c (front ++ tail) = .ok (token, extra) ∧ extra ≤ front.length := by
  have hend : Ends tail := by
    cases tail with
    | nil => exact .nil
    | cons t tail => exact .char tail (hbreak t rfl)
  obtain ⟨hlong, hshort⟩ | ⟨longer, shorter, hlong, hshort, hcut⟩ :=
    prefixed_append c front hend
  · cases hop : operators c with
    | some entry =>
      obtain ⟨alone, table⟩ := entry
      cases hcomment : opensComment c front with
      | true => exact comment_append hcomment h hseparator
      | false =>
        have hcomment' : opensComment c (front ++ tail) = false := by
          have hhead (q : Char) (hq : q ∉ breaks) :
              ((front ++ tail).head? == some q) = (front.head? == some q) := by
            refine head?_of_append fun t ht => beq_eq_false_iff_ne.mpr ?_
            rintro rfl
            exact hq (hbreak t ht)
          rwa [opensComment, hhead '-' (by decide), hhead '*' (by decide)]
        rw [scan_operator hop hcomment] at h
        rw [scan_operator hop hcomment']
        exact longest_append (operators_unbroken hop) hbreak h
    | none =>
      rw [scan_plain hop hshort] at h
      rw [scan_plain hop hlong]
      refine (plain_append hend ?_ token extra).mp h
      rintro rfl rfl -
      cases h
      exact absurd (hseparator rfl) (Nat.not_lt_zero _)
  · rw [scan_opened hshort] at h
    rw [scan_opened hlong]
    exact (hcut token extra).mp h

end Lexer

end QueryBuild.Query

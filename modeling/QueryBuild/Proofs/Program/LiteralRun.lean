import QueryBuild.Proofs.Program.Literal
import QueryBuild.Proofs.Text.Bytes
/-!
# Adjacent literals by their bytes

A compiler takes as many adjacent string literals as there are and puts the bytes that they stand
for together. In front of anything but another literal, the literals that a text is encoded as are
taken to their last quote, and their bytes are those of the text.
-/

namespace QueryBuild

namespace Cpp

/-! ### A run of literals -/

/-- A text with its trigraphs replaced and, after that, its continued lines joined. -/
def spliced (text : List Char) : List Char :=
  joinLines (replaceTrigraphs text)

/-- The white space of C++. -/
def isSpace (c : Char) : Bool :=
  c == ' ' || c == '\t' || c == '\n' || c == '\x0b' || c == '\x0c'

/-- The octal digits that an escape starts with: at most three. -/
def octalDigits (text : List Char) : List Char :=
  (text.take 3).takeWhile fun c => (octalDigit? c).isSome

def octalValue (digits : List Char) : Nat :=
  (digits.filterMap octalDigit?).foldl (fun value digit => 8 * value + digit) 0

/-- The bytes of the escape behind a backslash, and what follows it. -/
def escaped? (text : List Char) : Option (List UInt8 × List Char) :=
  match text.head?.bind simpleEscape? with
  | some meant => some (String.utf8EncodeChar meant, text.tail)
  | none =>
    let digits := octalDigits text
    if digits = [] ∨ 255 < octalValue digits then none
    else some ([UInt8.ofNat (octalValue digits)], text.drop digits.length)

/-- Puts bytes in front of what is read behind them. -/
def prepend (bytes : List UInt8) :
    Option (List UInt8 × List Char) → Option (List UInt8 × List Char) :=
  Option.map fun (more, rest) => (bytes ++ more, rest)

theorem length_le_of_escaped? {text after : List Char} {bytes : List UInt8}
    (h : escaped? text = some (bytes, after)) : after.length ≤ text.length := by
  unfold escaped? at h
  split at h
  · cases h
    simp
  · dsimp only at h
    split at h
    · cases h
    · cases h
      simp

/-- The bytes of a literal behind its first quote, and what follows the literal. -/
def literalRest (text : List Char) : Option (List UInt8 × List Char) :=
  match text with
  | [] => none
  | '"' :: rest => some ([], rest)
  | '\n' :: _ => none
  | '\\' :: rest =>
    match h : escaped? rest with
    | none => none
    | some (bytes, after) =>
      have := length_le_of_escaped? h
      prepend bytes (literalRest after)
  | c :: rest => prepend (String.utf8EncodeChar c) (literalRest rest)
termination_by text.length
decreasing_by
  · simp only [List.length_cons]
    omega
  · simp

theorem eq_some_of_prepend {bytes result : List UInt8} {after : List Char}
    {read : Option (List UInt8 × List Char)} (h : prepend bytes read = some (result, after)) :
    ∃ more, read = some (more, after) := by
  obtain ⟨⟨more, rest⟩, hread, hsame⟩ := Option.map_eq_some_iff.mp h
  cases hsame
  exact ⟨more, hread⟩

theorem length_lt_of_literalRest {text after : List Char} {bytes : List UInt8}
    (h : literalRest text = some (bytes, after)) : after.length < text.length := by
  fun_induction literalRest text generalizing bytes with
  | case1 => cases h
  | case2 rest =>
    cases h
    simp
  | case3 => cases h
  | case4 => cases h
  | case5 rest escape behind hescape hle ih =>
    obtain ⟨more, hmore⟩ := eq_some_of_prepend h
    have hlt := ih hmore
    simp only [List.length_cons]
    omega
  | case6 c rest hquote hline hslash ih =>
    obtain ⟨more, hmore⟩ := eq_some_of_prepend h
    have hlt := ih hmore
    simp only [List.length_cons]
    omega

/-- The bytes of the adjacent literals that a text starts with, and what follows the last one. -/
def literalRun (text : List Char) : Option (List UInt8 × List Char) :=
  match text with
  | '"' :: first =>
    match h : literalRest first with
    | none => none
    | some (bytes, after) =>
      if (after.dropWhile isSpace).head? = some '"' then
        have := length_lt_of_literalRest h
        prepend bytes (literalRun (after.dropWhile isSpace))
      else some (bytes, after)
  | _ => none
termination_by text.length
decreasing_by
  have hle := (List.dropWhile_sublist isSpace : (after.dropWhile isSpace).Sublist after).length_le
  simp only [List.length_cons]
  omega

/-! ### What stands in front of a text -/

/-- A text that is changed in none of its characters, and whose end takes part in nothing. -/
structure Settled (front : List Char) : Prop where
  chain : front.IsChain Apart
  last : ∀ a ∈ front.getLast?, a ≠ '?' ∧ a ≠ '\\'

theorem Settled.tail {c : Char} {front : List Char} (h : Settled (c :: front)) : Settled front :=
  ⟨h.chain.tail, fun a ha => h.last a (List.mem_getLast?_cons ha)⟩

/-- The next character neither makes a trigraph with the first one nor joins its line. -/
theorem Settled.head {c d : Char} {front back rest : List Char} (h : Settled (c :: front))
    (hnext : front ++ back = d :: rest) : Apart c d := by
  cases front with
  | nil =>
    obtain ⟨hmark, hslash⟩ := h.last c rfl
    exact ⟨fun heq => hmark heq.1, fun heq => hslash heq.1⟩
  | cons e front =>
    cases hnext
    exact (List.isChain_cons_cons.mp h.chain).1

theorem replaceTrigraphs_append {front : List Char} (h : Settled front) (back : List Char) :
    replaceTrigraphs (front ++ back) = front ++ replaceTrigraphs back := by
  induction front with
  | nil => rfl
  | cons c front ih =>
    rw [List.cons_append, List.cons_append, ← ih h.tail]
    rw [replaceTrigraphs]
    rintro d rest rfl hnext
    exact (h.head hnext).1 ⟨rfl, rfl⟩

theorem joinLines_append {front : List Char} (h : Settled front) (back : List Char) :
    joinLines (front ++ back) = front ++ joinLines back := by
  induction front with
  | nil => rfl
  | cons c front ih =>
    rw [List.cons_append, List.cons_append, ← ih h.tail]
    rw [joinLines]
    rintro rest rfl hnext
    exact (h.head hnext).2 ⟨rfl, rfl⟩

theorem spliced_append {front : List Char} (h : Settled front) (back : List Char) :
    spliced (front ++ back) = front ++ spliced back := by
  rw [spliced, replaceTrigraphs_append h, joinLines_append h, spliced]

end Cpp

namespace CppLiteral

open Cpp

/-! ### The bytes of one literal -/

theorem utf8EncodeChar_of_lt {c : Char} (hc : c.toNat < 128) :
    String.utf8EncodeChar c = [UInt8.ofNat c.toNat] := by
  have hval : c.val.toNat ≤ 127 := Nat.le_of_lt_succ hc
  rw [String.utf8EncodeChar]
  exact if_pos hval

theorem escaped?_octalEscape {n : Nat} (hn : n < 128) (rest : List Char) :
    escaped? (octalDigit (n / 64) :: octalDigit (n / 8) :: octalDigit n :: rest) =
      some ([UInt8.ofNat n], rest) := by
  have hdigits : octalDigits (octalDigit (n / 64) :: octalDigit (n / 8) :: octalDigit n :: rest) =
      [octalDigit (n / 64), octalDigit (n / 8), octalDigit n] := by
    simp [octalDigits, octalDigit?_octalDigit]
  have hvalue : octalValue [octalDigit (n / 64), octalDigit (n / 8), octalDigit n] = n := by
    simp only [octalValue, List.filterMap_cons, octalDigit?_octalDigit, List.filterMap_nil,
      List.foldl_cons, List.foldl_nil]
    omega
  have hsimple : (some (octalDigit (n / 64))).bind simpleEscape? = none :=
    simpleEscape?_octalDigit _
  have hsmall : ¬ ([octalDigit (n / 64), octalDigit (n / 8), octalDigit n] = [] ∨ 255 < n) := by
    simp only [List.cons_ne_nil, false_or]
    omega
  rw [escaped?, List.head?_cons, hsimple]
  dsimp only
  rw [hdigits, hvalue, if_neg hsmall]
  rfl

theorem literalRest_escaped {text after : List Char} {bytes : List UInt8}
    (h : escaped? text = some (bytes, after)) :
    literalRest ('\\' :: text) = prepend bytes (literalRest after) := by
  rw [literalRest]
  split
  · rename_i hnone
    rw [h] at hnone
    cases hnone
  · rename_i hsome
    rw [h] at hsome
    cases hsome
    rfl

theorem literalRest_escape (c : Char) (rest : List Char) :
    literalRest (escape c ++ rest) = prepend (String.utf8EncodeChar c) (literalRest rest) := by
  unfold escape
  split
  · exact literalRest_escaped rfl
  · exact literalRest_escaped rfl
  · exact literalRest_escaped rfl
  · exact literalRest_escaped rfl
  · exact literalRest_escaped rfl
  · exact literalRest_escaped rfl
  · rename_i hslash hquote hline hreturn htab hmark
    split
    · rename_i hcontrol
      have hsmall : c.toNat < 128 := lt_of_isControl hcontrol
      rw [utf8EncodeChar_of_lt hsmall]
      exact literalRest_escaped (escaped?_octalEscape hsmall rest)
    · rw [List.singleton_append, literalRest]
      · exact hquote
      · exact hline
      · exact hslash

theorem literalRest_flatMap_escape (line rest : List Char) :
    literalRest (line.flatMap escape ++ '"' :: rest) =
      some (line.flatMap String.utf8EncodeChar, rest) := by
  induction line with
  | nil => rw [List.flatMap_nil, List.nil_append, literalRest, List.flatMap_nil]
  | cons c line ih =>
    rw [List.flatMap_cons, List.append_assoc, literalRest_escape, ih, List.flatMap_cons]
    rfl

/-! ### The bytes of all literals -/

theorem literalRun_encodeLine (line rest : List Char) :
    literalRun (encodeLine line ++ rest) =
      if (rest.dropWhile isSpace).head? = some '"' then
        prepend (line.flatMap String.utf8EncodeChar) (literalRun (rest.dropWhile isSpace))
      else some (line.flatMap String.utf8EncodeChar, rest) := by
  have hread := literalRest_flatMap_escape line rest
  rw [encodeLine, List.cons_append, List.cons_append, List.append_assoc, List.singleton_append,
    literalRun]
  split
  · rename_i hnone
    rw [hread] at hnone
    cases hnone
  · rename_i hsome
    rw [hread] at hsome
    cases hsome
    rfl

/-- In front of anything but a literal, the literals of lines are read to the last quote. -/
theorem literalRun_lines (line : List Char) (lines : List (List Char)) {rest : List Char}
    (h : (rest.dropWhile isSpace).head? ≠ some '"') :
    literalRun (List.intercalate separator ((line :: lines).map encodeLine) ++ rest) =
      some ((line :: lines).flatten.flatMap String.utf8EncodeChar, rest) := by
  induction lines generalizing line with
  | nil =>
    rw [List.map_singleton, List.intercalate_singleton, literalRun_encodeLine, if_neg h]
    simp
  | cons second lines ih =>
    have hmore : (second :: lines).map encodeLine ≠ [] := by simp
    obtain ⟨tail, htail⟩ : ∃ tail, List.intercalate separator
        ((second :: lines).map encodeLine) ++ rest = '"' :: tail := by
      cases lines with
      | nil => exact ⟨_, rfl⟩
      | cons third lines => exact ⟨_, rfl⟩
    have hspace : (separator ++ '"' :: tail).dropWhile isSpace = '"' :: tail := rfl
    have hnext := ih second
    rw [htail] at hnext
    rw [List.map_cons, List.intercalate_cons_of_ne_nil hmore, List.append_assoc, List.append_assoc,
      htail, literalRun_encodeLine, hspace, List.head?_cons, if_pos rfl, hnext]
    simp [prepend]

theorem literalRun_encodeChars (text : List Char) {rest : List Char}
    (h : (rest.dropWhile isSpace).head? ≠ some '"') :
    literalRun (encodeChars text ++ rest) = some (text.flatMap String.utf8EncodeChar, rest) := by
  obtain ⟨line, lines, rfl, hlines⟩ := exists_lines_encodeChars text
  rw [hlines]
  exact literalRun_lines line lines h

theorem settled_encodeChars (text : List Char) : Settled (encodeChars text) := by
  obtain ⟨hchain, hlast⟩ := isChain_encodeChars text
  refine ⟨hchain, fun a ha => ?_⟩
  rw [hlast] at ha
  cases ha
  decide

/-! ### The bytes of an encoded text -/

/-- What a text is encoded as stays as it is before tokens are taken. -/
theorem spliced_encode (text : String) (continuation : List Char) :
    spliced ((encode text).toList ++ continuation) =
      (encode text).toList ++ spliced continuation := by
  have hchars : (encode text).toList = encodeChars text.toList := String.toList_ofList
  rw [hchars]
  exact spliced_append (settled_encodeChars text.toList) continuation

theorem literalRun_spliced_encode (text : String) {continuation : List Char}
    (h : ((spliced continuation).dropWhile isSpace).head? ≠ some '"') :
    literalRun (spliced ((encode text).toList ++ continuation)) =
      some (text.toUTF8.toList, spliced continuation) := by
  have hchars : (encode text).toList = encodeChars text.toList := String.toList_ofList
  rw [spliced_encode, hchars, Text.toList_toUTF8]
  exact literalRun_encodeChars text.toList h

/-- Whatever a text holds, and whatever follows it but a further literal, the literals that the text
is encoded as are taken to their last quote, as the bytes of the text. No two texts have the same
literals. -/
theorem literalRun_encode :
    (∀ (text : String) (continuation : List Char),
      ((spliced continuation).dropWhile isSpace).head? ≠ some '"' →
        spliced ((encode text).toList ++ continuation) =
            (encode text).toList ++ spliced continuation ∧
          literalRun (spliced ((encode text).toList ++ continuation)) =
            some (text.toUTF8.toList, spliced continuation)) ∧
      Function.Injective encode := by
  refine ⟨fun text continuation hnext => ?_, fun first second hsame => ?_⟩
  · exact ⟨spliced_encode text continuation, literalRun_spliced_encode text hnext⟩
  · have hend : ((spliced []).dropWhile isSpace).head? ≠ some '"' := by decide
    have hfirst := literalRun_spliced_encode first hend
    have hsecond := literalRun_spliced_encode second hend
    rw [hsame, hsecond] at hfirst
    have hbytes : second.toUTF8.toList = first.toUTF8.toList :=
      congrArg Prod.fst (Option.some.inj hfirst)
    exact (Text.toUTF8_inj.mp hbytes).symm

/-- The line behind the literals is continued by a trigraph, and ends in a literal of its own. -/
theorem literals_in_front_of_continued_line :
    let text := "say \"??/\"\\\n\x017é\n\n?"
    let continuation := " ??/\n; \"more\"".toList
    ((spliced continuation).dropWhile isSpace).head? ≠ some '"' ∧
      literalRun (spliced ((encode text).toList ++ continuation)) =
        some (text.toUTF8.toList, " ; \"more\"".toList) := by
  dsimp only
  have hline : spliced " ??/\n; \"more\"".toList = " ; \"more\"".toList := by decide
  have hnext : ((spliced " ??/\n; \"more\"".toList).dropWhile isSpace).head? ≠ some '"' := by
    rw [hline]
    decide
  have hread := (literalRun_encode.1 "say \"??/\"\\\n\x017é\n\n?" _ hnext).2
  rw [hline] at hread
  exact ⟨hnext, hread⟩

end CppLiteral

end QueryBuild

import QueryBuild.Json.Decoder
import QueryBuild.Proofs.Json.Layout
/-!
# Reading what was written

The pieces of a written text are read back one by one: white space is passed over, an escaped
character gives the character, and the digits of a number give the number if what follows does not
go on with it.
-/

namespace QueryBuild.Json

/-- A character that can go on with a number. -/
def continuesNumber (c : Char) : Bool :=
  c.isDigit || c == '.' || c == 'e' || c == 'E'

/-- A rest of a text in front of which a number ends. -/
def Stops (rest : List Char) : Prop :=
  ∀ c ∈ rest.head?, continuesNumber c = false

/-- White space only. -/
def Blank (cs : List Char) : Prop :=
  ∀ c ∈ cs, Reader.isSpace c = true

theorem Blank.nil : Blank [] := by
  intro c hc
  cases hc

theorem stops_nil : Stops [] := by
  intro c hc
  cases hc

theorem stops_cons {c : Char} (h : continuesNumber c = false) (rest : List Char) :
    Stops (c :: rest) := by
  intro x hx
  cases hx
  exact h

theorem continuesNumber_of_isSpace {c : Char} (h : Reader.isSpace c = true) :
    continuesNumber c = false := by
  simp only [Reader.isSpace, Bool.or_eq_true, beq_iff_eq] at h
  rcases h with ((rfl | rfl) | rfl) | rfl
  all_goals decide

theorem Stops.not_digit {rest : List Char} (h : Stops rest) {c : Char} (hc : rest.head? = some c) :
    c.isDigit = false := by
  have hstop := h c hc
  simp only [continuesNumber, Bool.or_eq_false_iff] at hstop
  exact hstop.1.1.1

theorem Stops.of_blank {blanks rest : List Char} (hblank : Blank blanks) (h : Stops rest) :
    Stops (blanks ++ rest) := by
  cases blanks with
  | nil => exact h
  | cons c blanks => exact stops_cons (continuesNumber_of_isSpace (hblank c (by simp))) _

namespace Reader

/-! ### Steps -/

theorem bind_ok {α β : Type} {x : Reader α} {f : α → Reader β} {cs rest : List Char} {a : α}
    (h : x cs = .ok (a, rest)) : (x >>= f) cs = f a rest := by
  simp [bind, StateT.bind, Except.bind, h]

theorem pure_ok {α : Type} (a : α) (cs : List Char) : (pure a : Reader α) cs = .ok (a, cs) :=
  rfl

theorem dropWhile_blank {blanks : List Char} (h : Blank blanks) {c : Char}
    (hc : isSpace c = false) (cs : List Char) :
    (blanks ++ c :: cs).dropWhile isSpace = c :: cs := by
  rw [List.dropWhile_append_of_pos h, List.dropWhile_cons_of_neg (by simp [hc])]

theorem peekSolid_blank {blanks : List Char} (h : Blank blanks) {c : Char}
    (hc : isSpace c = false) (cs : List Char) :
    peekSolid (blanks ++ c :: cs) = .ok (some c, c :: cs) := by
  rw [peekSolid, dropWhile_blank h hc]
  rfl

theorem peekValue_blank {blanks : List Char} (h : Blank blanks) {c : Char}
    (hc : isSpace c = false) (cs : List Char) :
    peekValue (blanks ++ c :: cs) = .ok (c, c :: cs) := by
  rw [peekValue, bind_ok (peekSolid_blank h hc cs)]
  rfl

theorem peekSolid_cons {c : Char} (hc : isSpace c = false) (cs : List Char) :
    peekSolid (c :: cs) = .ok (some c, c :: cs) :=
  peekSolid_blank Blank.nil hc cs

theorem peekValue_cons {c : Char} (hc : isSpace c = false) (cs : List Char) :
    peekValue (c :: cs) = .ok (c, c :: cs) :=
  peekValue_blank Blank.nil hc cs

theorem skip_cons (c : Char) (cs : List Char) : skip (c :: cs) = .ok ((), cs) :=
  rfl

theorem colon_cons (cs : List Char) : colon (':' :: cs) = .ok ((), cs) := by
  rw [colon, bind_ok (peekSolid_cons (by decide) cs)]
  rfl

theorem word_append (w rest : List Char) : word w (w ++ rest) = .ok ((), rest) := by
  induction w with
  | nil => rfl
  | cons c w ih =>
    have hpeek : peek (c :: (w ++ rest)) = .ok (some c, c :: (w ++ rest)) := rfl
    rw [List.cons_append, word, bind_ok hpeek]
    dsimp only
    rw [bind_ok (skip_cons c (w ++ rest)), if_pos (by simp)]
    exact ih

/-! ### Strings -/

theorem hexValue?_hexDigit : ∀ n < 16, hexValue? (hexDigit n) = some n := by decide

theorem hexQuad_hexDigit {n : Nat} (h : n < 256) (rest : List Char) :
    hexQuad ('0' :: '0' :: hexDigit (n / 16) :: hexDigit (n % 16) :: rest) = .ok n := by
  have hzero : hexValue? '0' = some 0 := by decide
  have hhigh := hexValue?_hexDigit (n / 16) (by omega)
  have hlow := hexValue?_hexDigit (n % 16) (by omega)
  have hquad : ['0', '0', hexDigit (n / 16), hexDigit (n % 16)].mapM hexValue? =
      some [0, 0, n / 16, n % 16] := by
    simp [hzero, hhigh, hlow]
  have htake : ('0' :: '0' :: hexDigit (n / 16) :: hexDigit (n % 16) :: rest).take 4 =
      ['0', '0', hexDigit (n / 16), hexDigit (n % 16)] := rfl
  rw [hexQuad, htake, hquad]
  exact congrArg Except.ok (by omega)

theorem stringBody_letter {c x : Char} (h : escaped? c = some x) (rest : List Char) :
    stringBody ('\\' :: c :: rest) = consRead x (stringBody rest) := by
  rw [stringBody, h]
  rintro rfl
  cases h

theorem stringBody_plain {c : Char} (hquote : c ≠ '"') (hslash : c ≠ '\\')
    (hcontrol : ¬ c.toNat < 32) (rest : List Char) :
    stringBody (c :: rest) = consRead c (stringBody rest) := by
  rw [stringBody, if_neg hcontrol]
  · exact hquote
  · exact fun h => absurd h hslash
  · exact fun _ h => absurd h hslash
  · exact fun _ _ h => absurd h hslash

theorem stringBody_control {c : Char} (h : c.toNat < 32) (rest : List Char) :
    stringBody ('\\' :: 'u' :: '0' :: '0' :: hexDigit (c.toNat / 16) :: hexDigit (c.toNat % 16) ::
      rest) = consRead c (stringBody rest) := by
  have hlow : isLowSurrogate c.toNat = false := by
    simp [isLowSurrogate]
    omega
  have hhigh : isHighSurrogate c.toNat = false := by
    simp [isHighSurrogate]
    omega
  rw [stringBody, hexQuad_hexDigit (by omega)]
  simp only [hlow, hhigh, List.drop_succ_cons, List.drop_zero, Char.ofNat_toNat]
  rfl

theorem stringBody_escape (c : Char) (rest : List Char) :
    stringBody (escape c ++ rest) = consRead c (stringBody rest) := by
  unfold escape
  split
  · exact stringBody_letter rfl rest
  · exact stringBody_letter rfl rest
  · exact stringBody_letter rfl rest
  · exact stringBody_letter rfl rest
  · exact stringBody_letter rfl rest
  · exact stringBody_letter rfl rest
  · exact stringBody_letter rfl rest
  · rename_i hquote hslash _ _ _ _ _
    split
    · exact stringBody_control ‹_› rest
    · exact stringBody_plain hquote hslash ‹_› rest

theorem stringBody_escaped (cs rest : List Char) :
    stringBody (cs.flatMap escape ++ '"' :: rest) = .ok (cs, rest) := by
  induction cs with
  | nil => rw [List.flatMap_nil, List.nil_append, stringBody]
  | cons c cs ih =>
    rw [List.flatMap_cons, List.append_assoc, stringBody_escape, ih]
    rfl

theorem string_quoted (s : String) (rest : List Char) :
    string (s.toList.flatMap escape ++ '"' :: rest) = .ok (s, rest) := by
  rw [string, stringBody_escaped]
  dsimp only
  rw [String.ofList_toList]

/-! ### Numbers -/

theorem repr_lead (n : Nat) : ∃ c cs, n.repr.toList = c :: cs ∧ c.isDigit = true := by
  rw [Nat.toList_repr]
  obtain ⟨c, cs, hcs⟩ := List.exists_cons_of_ne_nil (@Nat.toDigits_ne_nil n 10)
  exact ⟨c, cs, hcs, Nat.isDigit_of_mem_toDigits (by omega) (by omega) (hcs ▸ List.mem_cons_self)⟩

theorem ne_of_isDigit {c x : Char} (h : c.isDigit = true) (hx : x.isDigit = false) : c ≠ x := by
  rintro rfl
  rw [h] at hx
  cases hx

theorem isSpace_of_isDigit {c : Char} (h : c.isDigit = true) : isSpace c = false := by
  simp only [isSpace, Bool.or_eq_false_iff, beq_eq_false_iff_ne]
  exact ⟨⟨⟨ne_of_isDigit h (by decide), ne_of_isDigit h (by decide)⟩, ne_of_isDigit h (by decide)⟩,
    ne_of_isDigit h (by decide)⟩

theorem le_ofDigitChars (ds : List Char) (value : Nat) : value ≤ Nat.ofDigitChars 10 ds value := by
  induction ds generalizing value with
  | nil => exact Nat.le_refl value
  | cons d ds ih =>
    rw [Nat.ofDigitChars_cons]
    have := ih (10 * value + (d.toNat - '0'.toNat))
    omega

/-- Digits are put together up to the last one if their number is within the limit. -/
theorem accumulate_ofDigitChars {value : Nat} {ds : List Char}
    (h : Nat.ofDigitChars 10 ds value ≤ Number.wholeLimit) :
    Number.accumulate value ds = (Nat.ofDigitChars 10 ds value, 0) := by
  induction ds generalizing value with
  | nil => rfl
  | cons d ds ih =>
    have hnext : value * 10 + (d.toNat - 48) = 10 * value + (d.toNat - '0'.toNat) := by
      rw [Nat.mul_comm]
      rfl
    rw [Nat.ofDigitChars_cons] at h ⊢
    rw [Number.accumulate, hnext, if_pos (Nat.le_trans (le_ofDigitChars ds _) h), ih h]

theorem toDigits_lead {n : Nat} (hn : 0 < n) :
    ∃ d ds, Nat.toDigits 10 n = d :: ds ∧ d ≠ '0' := by
  induction n using Nat.strongRecOn with
  | ind n ih =>
    by_cases hlt : n < 10
    · refine ⟨n.digitChar, [], Nat.toDigits_of_lt_base hlt, ?_⟩
      rw [ne_eq, Nat.digitChar_eq_zero]
      omega
    · obtain ⟨d, ds, hds, hd⟩ := ih (n / 10) (by omega) (by omega)
      refine ⟨d, ds ++ [(n % 10).digitChar], ?_, hd⟩
      rw [Nat.toDigits_of_base_le (by omega) (by omega), hds, List.cons_append]

theorem numberTail_stops {rest : List Char} (h : Stops rest) (positive : Bool) (significand : Nat)
    (start : Int) (whole : Reader Number) :
    numberTail positive significand start whole rest = whole rest := by
  cases rest with
  | nil => rfl
  | cons c rest =>
    have hpeek : peek (c :: rest) = .ok (some c, c :: rest) := rfl
    have hc := h c rfl
    simp only [continuesNumber, Bool.or_eq_false_iff, beq_eq_false_iff_ne] at hc
    obtain ⟨⟨⟨-, hpoint⟩, hlower⟩, hupper⟩ := hc
    rw [numberTail, bind_ok hpeek]
    simp [hpoint, hlower, hupper]

theorem digits_append {ds rest : List Char} (hds : ∀ d ∈ ds, d.isDigit = true) (h : Stops rest) :
    digits (ds ++ rest) = .ok (ds, rest) := by
  have hrest : rest.takeWhile Char.isDigit = [] ∧ rest.dropWhile Char.isDigit = rest := by
    cases rest with
    | nil => exact ⟨rfl, rfl⟩
    | cons c rest =>
      simp [h.not_digit rfl]
  rw [digits, List.takeWhile_append_of_pos hds, List.dropWhile_append_of_pos hds, hrest.1, hrest.2,
    List.append_nil]

theorem number_zero {rest : List Char} (h : Stops rest) :
    number true ('0' :: rest) = .ok (.natural 0, rest) := by
  have hpeek : peek ('0' :: rest) = .ok (some '0', '0' :: rest) := rfl
  have hnext : peek rest = .ok (rest.head?, rest) := rfl
  rw [number, bind_ok hpeek]
  simp only [bind_ok (skip_cons _ _), bind_ok hnext]
  cases rest with
  | nil => rfl
  | cons c rest =>
    simp only [List.head?_cons, h.not_digit rfl, Bool.false_eq_true, ↓reduceIte]
    exact numberTail_stops h true 0 0 _

/-- A number is read back from its digits. -/
theorem number_repr {n : Nat} (hn : n ≤ Number.wholeLimit) {rest : List Char} (h : Stops rest) :
    number true (n.repr.toList ++ rest) = .ok (.natural n, rest) := by
  rw [Nat.toList_repr]
  rcases Nat.eq_zero_or_pos n with rfl | hpos
  · exact number_zero h
  · obtain ⟨d, ds, hds, hd⟩ := toDigits_lead hpos
    have hdigits : ∀ x ∈ d :: ds, x.isDigit = true := fun x hx =>
      Nat.isDigit_of_mem_toDigits (by omega) (by omega) (hds ▸ hx)
    have hvalue : Nat.ofDigitChars 10 (d :: ds) 0 = n := by
      rw [← hds]
      exact Nat.ofDigitChars_ten_toDigits
    have hpeek : peek (d :: ds ++ rest) = .ok (some d, d :: ds ++ rest) := rfl
    rw [hds, number, bind_ok hpeek]
    simp only [hdigits d List.mem_cons_self, ↓reduceIte]
    have hlimit := Nat.le_trans (Nat.le_of_eq hvalue) hn
    rw [bind_ok (digits_append hdigits h), accumulate_ofDigitChars hlimit, hvalue]
    exact numberTail_stops h true n 0 _

end Reader

end QueryBuild.Json

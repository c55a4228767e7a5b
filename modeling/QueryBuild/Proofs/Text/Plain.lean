import Mathlib
import QueryBuild.Text.Lossy
/-!
# Plain characters and their bytes

A plain character is an ASCII character other than the null character. In encoded text it is its
own byte, and in the text of some bytes it always stands for its own byte, whatever is broken
around it.
-/

namespace QueryBuild.Text

/-- An ASCII character other than the null character. -/
def IsPlain (c : Char) : Prop :=
  0 < c.toNat ∧ c.toNat < 0x80

instance (c : Char) : Decidable (IsPlain c) :=
  inferInstanceAs (Decidable (_ ∧ _))

/-- The byte of a plain character. -/
def byteOf (c : Char) : UInt8 :=
  UInt8.ofNat c.toNat

theorem eq_of_ofNat_eq {n : Nat} {c : Char} (hc : IsPlain c) (h : Char.ofNat n = c) :
    n = c.toNat := by
  rw [Char.ofNat] at h
  split at h
  · rw [← h]
    simp [Char.ofNatAux, Char.toNat]
  · rw [← h] at hc
    exact absurd hc.1 (by decide)

theorem byteOf_of_ofNat_eq {b : UInt8} {c : Char} (hc : IsPlain c) (h : Char.ofNat b.toNat = c) :
    byteOf c = b := by
  rw [byteOf, ← eq_of_ofNat_eq hc h]
  exact UInt8.ofNat_toNat

/-! ### Encoding -/

theorem fromUTF8?_eq_some {bytes : ByteArray} {text : String} :
    String.fromUTF8? bytes = some text ↔ bytes = text.toUTF8 := by
  rw [String.fromUTF8?]
  constructor
  · intro h
    split at h
    · cases h
      rfl
    · cases h
  · intro heq
    subst heq
    have hvalid : text.toUTF8.IsValidUTF8 := text.isValidUTF8
    rw [dif_pos hvalid]
    rfl

theorem mem_utf8EncodeChar {c : Char} {b : UInt8} (hb : b.toNat < 0x80) :
    b ∈ String.utf8EncodeChar c ↔ c.toNat < 0x80 ∧ b = byteOf c := by
  have hval : c.val.toNat = c.toNat := rfl
  rw [String.utf8EncodeChar, byteOf, hval]
  split
  · rw [List.mem_singleton, and_iff_right (by omega)]
  · have hlarge : ∀ n, 0x80 ≤ n % 256 → b ≠ UInt8.ofNat n := by
      intro n hn heq
      rw [heq, UInt8.toNat_ofNat'] at hb
      omega
    refine iff_of_false ?_ (by omega)
    split
    · simp only [List.mem_cons, List.not_mem_nil, or_false, not_or]
      exact ⟨hlarge _ (by omega), hlarge _ (by omega)⟩
    split
    · simp only [List.mem_cons, List.not_mem_nil, or_false, not_or]
      exact ⟨hlarge _ (by omega), hlarge _ (by omega), hlarge _ (by omega)⟩
    · simp only [List.mem_cons, List.not_mem_nil, or_false, not_or]
      exact ⟨hlarge _ (by omega), hlarge _ (by omega), hlarge _ (by omega), hlarge _ (by omega)⟩

/-! ### Broken bytes -/

theorem leadInfo_cases {b size low high : Nat} (h : leadInfo b = some (size, low, high)) :
    (size = 2 ∧ 0xC2 ≤ b ∧ b ≤ 0xDF ∨ size = 3 ∧ 0xE0 ≤ b ∧ b ≤ 0xEF ∧ (b = 0xE0 → low = 0xA0) ∨
      size = 4 ∧ 0xF0 ≤ b ∧ b ≤ 0xF4 ∧ (b = 0xF0 → low = 0x90)) ∧ 0x80 ≤ low ∧ high ≤ 0xBF := by
  grind [leadInfo]

/-- The first of the bytes that continue a character lies in the range for it. -/
theorem continuation_bounds {n low high : Nat} {b : UInt8} {bytes more : List UInt8}
    (h : continuation n low high bytes = b :: more) : low ≤ b.toNat ∧ b.toNat ≤ high := by
  cases bytes with
  | nil => cases h
  | cons first bytes =>
    rw [continuation] at h
    split at h
    · cases h
    · rename_i hfirst
      cases h
      simp only [Bool.or_eq_true, beq_iff_eq, decide_eq_true_eq, not_or, Nat.not_lt] at hfirst
      exact ⟨hfirst.1.2, hfirst.2⟩

theorem le_codePoint {b size low high n : Nat} {bytes : List UInt8}
    (hlead : leadInfo b = some (size, low, high))
    (hlength : (continuation n low high bytes).length + 1 = size) :
    0x80 ≤ codePoint size b (continuation n low high bytes) := by
  obtain ⟨hcases, hlow, hhigh⟩ := leadInfo_cases hlead
  cases hmore : continuation n low high bytes with
  | nil =>
    rw [hmore] at hlength
    simp at hlength
    omega
  | cons x more =>
    have hx := continuation_bounds hmore
    rw [hmore] at hlength
    rw [codePoint, List.foldl_cons]
    rcases hcases with ⟨rfl, hb⟩ | ⟨rfl, hb⟩ | ⟨rfl, hb⟩
    · have hnil : more = [] := by simpa using hlength
      rw [hnil]
      simp
      omega
    · obtain ⟨y, rfl⟩ := List.length_eq_one_iff.mp (by simpa using hlength)
      simp
      omega
    · obtain ⟨y, z, rfl⟩ := List.length_eq_two.mp (by simpa using hlength)
      simp
      omega

theorem byteOf_mem {c : Char} (hc : IsPlain c) {bytes : List UInt8} (h : c ∈ lossyChars bytes) :
    byteOf c ∈ bytes := by
  fun_induction lossyChars bytes with
  | case1 => simp at h
  | case2 b rest hb ih =>
    rcases List.mem_cons.mp h with h | h
    · simp [byteOf_of_ofNat_eq hc h.symm]
    · exact List.mem_cons_of_mem _ (ih h)
  | case3 b rest hb hlead ih =>
    rcases List.mem_cons.mp h with rfl | h
    · exact absurd hc.2 (by decide)
    · exact List.mem_cons_of_mem _ (ih h)
  | case4 b rest hb size low high hlead more hlength ih =>
    rcases List.mem_cons.mp h with h | h
    · have hpoint : 0x80 ≤ codePoint size b.toNat more :=
        le_codePoint hlead (beq_iff_eq.mp hlength)
      have := eq_of_ofNat_eq hc h.symm
      exact absurd hc.2 (by omega)
    · exact List.mem_cons_of_mem _ (List.mem_of_mem_drop (ih h))
  | case5 b rest hb size low high hlead more hlength ih =>
    rcases List.mem_cons.mp h with rfl | h
    · exact absurd hc.2 (by decide)
    · exact List.mem_cons_of_mem _ (List.mem_of_mem_drop (ih h))

theorem bytes_of_lossyChars {bytes : List UInt8} {text : List Char} (htext : ∀ c ∈ text, IsPlain c)
    (h : lossyChars bytes = text) : bytes = text.map byteOf := by
  fun_induction lossyChars bytes generalizing text with
  | case1 => rw [← h]; rfl
  | case2 b rest hb ih =>
    subst h
    have hc := htext _ List.mem_cons_self
    rw [List.map_cons, byteOf_of_ofNat_eq hc rfl,
      ← ih (fun c hm => htext c (List.mem_cons_of_mem _ hm)) rfl]
  | case3 b rest hb hlead ih =>
    subst h
    exact absurd (htext _ List.mem_cons_self).2 (by decide)
  | case4 b rest hb size low high hlead more hlength =>
    subst h
    have hpoint : 0x80 ≤ codePoint size b.toNat more :=
      le_codePoint hlead (beq_iff_eq.mp hlength)
    have hc := htext _ List.mem_cons_self
    have := eq_of_ofNat_eq hc rfl
    exact absurd hc.2 (by omega)
  | case5 b rest hb size low high hlead more hlength =>
    subst h
    exact absurd (htext _ List.mem_cons_self).2 (by decide)

/-! ### Unbroken bytes -/

private theorem continuation_of_all {low high : Nat} {first : UInt8} {more : List UInt8}
    (hfirst : low ≤ first.toNat ∧ first.toNat ≤ high)
    (hmore : ∀ b ∈ more, isContinuation b = true) (rest : List UInt8) :
    continuation (more.length + 1) low high (first :: (more ++ rest)) = first :: more := by
  have hin : ¬ (more.length + 1 == 0 || first.toNat < low || high < first.toNat) = true := by
    simp
    omega
  rw [continuation, if_neg hin, Nat.add_sub_cancel, List.take_left' rfl]
  rw [List.takeWhile_eq_self_iff.mpr hmore]

/-- A first byte with as many bytes behind it as it tells gives one character. -/
private theorem lossyChars_several {first second : UInt8} {more : List UInt8}
    {size low high : Nat} (hlead : leadInfo first.toNat = some (size, low, high))
    (hsize : more.length + 2 = size) (hsecond : low ≤ second.toNat ∧ second.toNat ≤ high)
    (hmore : ∀ b ∈ more, isContinuation b = true) (rest : List UInt8) :
    lossyChars (first :: second :: (more ++ rest)) =
      Char.ofNat (codePoint size first.toNat (second :: more)) :: lossyChars rest := by
  subst hsize
  have hlarge : ¬ first.toNat < 0x80 := by
    have := (leadInfo_cases hlead).1
    omega
  rw [lossyChars, if_neg hlarge]
  simp only [hlead]
  rw [Nat.add_sub_cancel (m := 1), continuation_of_all hsecond hmore]
  simp

private theorem leadInfo_two {b : Nat} (h : 0xC2 ≤ b ∧ b ≤ 0xDF) :
    leadInfo b = some (2, 0x80, 0xBF) := by
  simp [leadInfo, h]

private theorem leadInfo_three {b : Nat} (h : 0xE0 ≤ b ∧ b ≤ 0xEF) :
    leadInfo b =
      some (3, if b = 0xE0 then 0xA0 else 0x80, if b = 0xED then 0x9F else 0xBF) := by
  grind [leadInfo]

private theorem leadInfo_four {b : Nat} (h : 0xF0 ≤ b ∧ b ≤ 0xF4) :
    leadInfo b =
      some (4, if b = 0xF0 then 0x90 else 0x80, if b = 0xF4 then 0x8F else 0xBF) := by
  grind [leadInfo]

theorem lossyChars_encode (c : Char) (rest : List UInt8) :
    lossyChars (String.utf8EncodeChar c ++ rest) = c :: lossyChars rest := by
  have hval : c.val.toNat = c.toNat := rfl
  have hvalid : c.toNat < 0xD800 ∨ 0xDFFF < c.toNat ∧ c.toNat < 0x110000 := c.valid
  rw [String.utf8EncodeChar, hval]
  split
  · have hb : (UInt8.ofNat c.toNat).toNat = c.toNat := by
      rw [UInt8.toNat_ofNat']
      omega
    rw [List.singleton_append, lossyChars, hb, if_pos (by omega), Char.ofNat_toNat]
  split
  · rw [← List.nil_append rest]
    refine (lossyChars_several (leadInfo_two ?_) rfl ?_ (by simp) rest).trans ?_
    · rw [UInt8.toNat_ofNat']
      omega
    · rw [UInt8.toNat_ofNat']
      omega
    · rw [← Char.ofNat_toNat c]
      simp only [UInt8.toNat_ofNat', codePoint, List.foldl_cons, List.foldl_nil]
      congr 2
      simp
      omega
  split
  · change lossyChars (_ :: _ :: ([_] ++ rest)) = _
    refine (lossyChars_several (leadInfo_three ?_) rfl ?_ ?_ rest).trans ?_
    · rw [UInt8.toNat_ofNat']
      omega
    · rw [UInt8.toNat_ofNat', UInt8.toNat_ofNat']
      constructor
      · split <;> omega
      · split <;> omega
    · simp [isContinuation]
      omega
    · rw [← Char.ofNat_toNat c]
      simp only [UInt8.toNat_ofNat', codePoint, List.foldl_cons, List.foldl_nil]
      congr 2
      simp
      omega
  · change lossyChars (_ :: _ :: ([_, _] ++ rest)) = _
    refine (lossyChars_several (leadInfo_four ?_) rfl ?_ ?_ rest).trans ?_
    · rw [UInt8.toNat_ofNat']
      omega
    · rw [UInt8.toNat_ofNat', UInt8.toNat_ofNat']
      constructor
      · split <;> omega
      · split <;> omega
    · simp [isContinuation]
      omega
    · rw [← Char.ofNat_toNat c]
      simp only [UInt8.toNat_ofNat', codePoint, List.foldl_cons, List.foldl_nil]
      congr 2
      simp
      omega

/-- The bytes of a text give the text. -/
theorem lossyChars_flatMap (text : List Char) :
    lossyChars (text.flatMap String.utf8EncodeChar) = text := by
  induction text with
  | nil => rw [List.flatMap_nil, lossyChars]
  | cons c text ih => rw [List.flatMap_cons, lossyChars_encode, ih]

end QueryBuild.Text

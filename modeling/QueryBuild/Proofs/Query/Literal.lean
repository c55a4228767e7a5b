import Mathlib.Data.List.TakeWhile
import QueryBuild.Query.Literal
/-!
# Where literals end

A literal or a comment that ends in a text ends in the same place whatever follows the text, as
long as that goes on with neither another quote nor a digit. Its last character is that of its
closing delimiter.
-/

namespace QueryBuild.Query

namespace Literal

variable {front tail : List Char} {value : List Char} {count : Nat}

/-- What fails a test does not change how far the characters in front of it pass the test. -/
theorem takeWhile_append_of_head {p : Char → Bool} (htail : ∀ t ∈ tail.head?, p t = false) :
    (front ++ tail).takeWhile p = front.takeWhile p := by
  induction front with
  | nil =>
    cases tail with
    | nil => rfl
    | cons t tail => exact List.takeWhile_cons_of_neg (by simp [htail t rfl])
  | cons c front ih => rw [List.cons_append, List.takeWhile_cons, List.takeWhile_cons, ih]

theorem takeWhile_take_append {p : Char → Bool} (htail : ∀ t ∈ tail.head?, p t = false) (n : Nat) :
    ((front ++ tail).take n).takeWhile p = (front.take n).takeWhile p := by
  rw [List.take_append]
  refine takeWhile_append_of_head fun t ht => htail t ?_
  cases hn : n - front.length with
  | zero => simp [hn] at ht
  | succ m => rwa [hn, List.head?_take, if_neg (Nat.succ_ne_zero m)] at ht

/-- What is read of a text is what is read of a longer one, as far as it ends within the text. -/
def Within {α : Type} (size : α → Nat) (limit : Nat) (longer shorter : Option α) : Prop :=
  ∀ a, shorter = some a ↔ longer = some a ∧ size a ≤ limit

theorem Within.none {α : Type} {size : α → Nat} {limit : Nat} {longer : Option α}
    (h : ∀ a, longer = some a → limit < size a) : Within size limit longer none :=
  fun a => ⟨nofun, fun ⟨ha, hle⟩ => absurd hle (Nat.not_le.mpr (h a ha))⟩

theorem Within.some {α : Type} {size : α → Nat} {limit : Nat} {longer : Option α} {a : α}
    (h : longer = some a) (hle : size a ≤ limit) : Within size limit longer (some a) := by
  subst h
  exact fun b => ⟨fun hb => ⟨hb, Option.some.inj hb ▸ hle⟩, And.left⟩

theorem Within.same {α : Type} {size : α → Nat} {limit : Nat} {result : Option α}
    (h : ∀ a, result = Option.some a → size a ≤ limit) : Within size limit result result :=
  fun a => ⟨fun ha => ⟨ha, h a ha⟩, And.left⟩

theorem Within.map {α β : Type} {f : α → β} {size : α → Nat} {size' : β → Nat} {limit limit' : Nat}
    {longer shorter : Option α} (h : Within size limit longer shorter)
    (hsize : ∀ a, size' (f a) ≤ limit' ↔ size a ≤ limit) :
    Within size' limit' (longer.map f) (shorter.map f) := by
  intro b
  simp only [Option.map_eq_some_iff]
  constructor
  · rintro ⟨a, ha, rfl⟩
    exact ⟨⟨a, ((h a).mp ha).1, rfl⟩, (hsize a).mpr ((h a).mp ha).2⟩
  · rintro ⟨⟨a, ha, rfl⟩, hle⟩
    exact ⟨a, (h a).mpr ⟨ha, (hsize a).mp hle⟩, rfl⟩

theorem Within.prepend {c : Char} {width limit : Nat} {longer shorter : Option (List Char × Nat)}
    (h : Within Prod.snd limit longer shorter) :
    Within Prod.snd (limit + width) (prepend c width longer) (prepend c width shorter) :=
  h.map fun _ => Nat.add_le_add_iff_right

theorem Within.succ {limit : Nat} {longer shorter : Option Nat} (h : Within id limit longer shorter) :
    Within id (limit + 1) (longer.map (· + 1)) (shorter.map (· + 1)) :=
  h.map fun _ => Nat.add_le_add_iff_right

theorem prepend_eq_some {c : Char} {width : Nat} {rest : Option (List Char × Nat)} :
    prepend c width rest = some (value, count) ↔
      ∃ inner n, rest = some (inner, n) ∧ c :: inner = value ∧ n + width = count := by
  rcases rest with _ | ⟨inner, n⟩
  · simp [prepend]
  · simp only [prepend, Option.map_some, Option.some.injEq, Prod.mk.injEq]
    exact ⟨fun h => ⟨inner, n, ⟨rfl, rfl⟩, h⟩, by rintro ⟨_, _, ⟨rfl, rfl⟩, h⟩; exact h⟩

/-- A character is the last one of a number of characters of a text. -/
def LastOf (text : List Char) (count : Nat) (c : Char) : Prop :=
  0 < count ∧ text[count - 1]? = some c

theorem LastOf.cons {text : List Char} {c d : Char} (h : LastOf text count c) :
    LastOf (d :: text) (count + 1) c := by
  obtain ⟨hpos, hc⟩ := h
  refine ⟨Nat.succ_pos count, ?_⟩
  obtain ⟨n, rfl⟩ : ∃ n, count = n + 1 := ⟨count - 1, by omega⟩
  exact hc

theorem LastOf.map {shorter : Option Nat} {text : List Char} {c d : Char}
    (hshorter : ∀ {n}, shorter = some n → LastOf text n c)
    (h : shorter.map (· + 1) = some count) : LastOf (d :: text) count c := by
  obtain ⟨n, hn, rfl⟩ := Option.map_eq_some_iff.mp h
  exact LastOf.cons (hshorter hn)

theorem LastOf.drop {text : List Char} {width : Nat} {c : Char}
    (h : LastOf (text.drop width) count c) : LastOf text (count + width) c := by
  obtain ⟨hpos, hc⟩ := h
  refine ⟨by omega, ?_⟩
  rw [List.getElem?_drop] at hc
  rw [← hc]
  congr 1
  omega

theorem LastOf.unique {text : List Char} {count : Nat} {c d : Char} (hc : LastOf text count c)
    (hd : LastOf text count d) : c = d :=
  Option.some.inj (hc.2.symm.trans hd.2)

theorem takeWhile_last {p : Char → Bool} {text : List Char} {d : Char}
    (h : LastOf text (text.takeWhile p).length d) : p d = true := by
  obtain ⟨hpos, hlast⟩ := h
  obtain ⟨rest, hrest⟩ := List.takeWhile_prefix (p := p) (l := text)
  have hlt : (text.takeWhile p).length - 1 < (text.takeWhile p).length := by omega
  rw [← hrest, List.getElem?_append_left (by rwa [hrest]), hrest] at hlast
  exact List.mem_takeWhile_imp (List.mem_of_getElem? hlast)

theorem quoted_last {quote : Char} {backslash : Bool} {text : List Char}
    (h : quoted quote backslash text = some (value, count)) : LastOf text count quote := by
  induction text using quoted.induct quote backslash generalizing value count with
  | case1 => cases h
  | case2 c hc =>
    rw [quoted, if_pos hc] at h
    cases h
    exact ⟨Nat.one_pos, congrArg some (eq_of_beq hc)⟩
  | case3 c hc =>
    rw [quoted, if_neg hc] at h
    cases h
  | case4 c d rest hc hd ih =>
    rw [quoted, if_pos hc, if_pos hd] at h
    obtain ⟨inner, n, hn, -, rfl⟩ := prepend_eq_some.mp h
    exact LastOf.cons (LastOf.cons (ih hn))
  | case5 c d rest hc hd =>
    rw [quoted, if_pos hc, if_neg hd] at h
    cases h
    exact ⟨Nat.one_pos, congrArg some (eq_of_beq hc)⟩
  | case6 c d rest hc hb ih =>
    rw [quoted, if_neg hc, if_pos hb] at h
    obtain ⟨inner, n, hn, -, rfl⟩ := prepend_eq_some.mp h
    exact LastOf.cons (LastOf.cons (ih hn))
  | case7 c d rest hc hb ih =>
    rw [quoted, if_neg hc, if_neg hb] at h
    obtain ⟨inner, n, hn, -, rfl⟩ := prepend_eq_some.mp h
    exact LastOf.cons (ih hn)

/-- A literal that ends in a text ends there whatever follows, unless another quote does. -/
theorem quoted_append {quote : Char} {backslash : Bool} (hquote : ∀ c ∈ tail.head?, c ≠ quote) :
    Within Prod.snd front.length (quoted quote backslash (front ++ tail))
      (quoted quote backslash front) := by
  induction front using quoted.induct quote backslash with
  | case1 => exact .none fun _ h => (quoted_last h).1
  | case2 c hc =>
    have hshort : quoted quote backslash [c] = some ([], 1) := by rw [quoted, if_pos hc]
    rw [hshort]
    refine .some ?_ (Nat.le_refl 1)
    cases tail with
    | nil => exact hshort
    | cons t tail =>
      have ht : ¬(t == quote) = true := by simpa using hquote t rfl
      rw [List.singleton_append, quoted, if_pos hc, if_neg ht]
  | case3 c hc =>
    have hshort : quoted quote backslash [c] = none := by rw [quoted, if_neg hc]
    rw [hshort]
    refine .none fun a h => ?_
    cases tail with
    | nil =>
      rw [List.append_nil, hshort] at h
      cases h
    | cons t tail =>
      rw [List.singleton_append, quoted, if_neg hc] at h
      rw [List.length_singleton]
      split at h
      · obtain ⟨_, n, -, -, hn⟩ := prepend_eq_some.mp h
        omega
      · obtain ⟨_, n, hn, -, hcount⟩ := prepend_eq_some.mp h
        have := (quoted_last hn).1
        omega
  | case4 c d rest hc hd ih =>
    rw [List.cons_append, List.cons_append, quoted, quoted, if_pos hc, if_pos hc, if_pos hd,
      if_pos hd]
    exact ih.prepend
  | case5 c d rest hc hd =>
    rw [List.cons_append, List.cons_append, quoted, quoted, if_pos hc, if_pos hc, if_neg hd,
      if_neg hd]
    exact .some rfl (Nat.succ_le_succ (Nat.zero_le _))
  | case6 c d rest hc hb ih =>
    rw [List.cons_append, List.cons_append, quoted, quoted, if_neg hc, if_neg hc, if_pos hb,
      if_pos hb]
    exact ih.prepend
  | case7 c d rest hc hb ih =>
    rw [List.cons_append, List.cons_append, quoted, quoted, if_neg hc, if_neg hc, if_neg hb,
      if_neg hb]
    exact ih.prepend

theorem blockComment_last {previous : Char} {depth : Nat} {text : List Char}
    (h : blockComment previous depth text = some count) : LastOf text count '/' := by
  induction text generalizing previous depth count with
  | nil => cases h
  | cons c text ih =>
    rw [blockComment] at h
    split at h
    · exact LastOf.map ih h
    · split at h
      · rename_i hclose
        split at h
        · cases h
          rw [Bool.and_eq_true, beq_iff_eq, beq_iff_eq] at hclose
          exact ⟨Nat.one_pos, congrArg some hclose.2⟩
        · exact LastOf.map ih h
      · exact LastOf.map ih h

theorem blockComment_append {previous : Char} {depth : Nat} :
    Within id front.length (blockComment previous depth (front ++ tail))
      (blockComment previous depth front) := by
  induction front generalizing previous depth with
  | nil => exact .none fun _ h => (blockComment_last h).1
  | cons c front ih =>
    rw [List.cons_append, blockComment, blockComment]
    split
    · exact ih.succ
    · split
      · split
        · exact .some rfl (Nat.succ_le_succ (Nat.zero_le _))
        · exact ih.succ
      · exact ih.succ

theorem two_le_of_dollarQuoted {text : List Char} (h : dollarQuoted text = some count) :
    2 ≤ count := by
  induction text using dollarQuoted.induct generalizing count with
  | case1 => cases h
  | case2 rest => cases h; exact Nat.le_refl 2
  | case3 c rest hne ih =>
    rw [dollarQuoted.eq_3 _ _ hne] at h
    obtain ⟨n, hn, rfl⟩ := Option.map_eq_some_iff.mp h
    exact Nat.le_succ_of_le (ih hn)

theorem dollarQuoted_last {text : List Char} (h : dollarQuoted text = some count) :
    LastOf text count '$' := by
  induction text using dollarQuoted.induct generalizing count with
  | case1 => cases h
  | case2 rest => cases h; exact ⟨Nat.two_pos, rfl⟩
  | case3 c rest hne ih =>
    rw [dollarQuoted.eq_3 _ _ hne] at h
    exact LastOf.map ih h

theorem dollarQuoted_append :
    Within id front.length (dollarQuoted (front ++ tail)) (dollarQuoted front) := by
  induction front using dollarQuoted.induct with
  | case1 => exact .none fun _ h => Nat.zero_lt_of_lt (two_le_of_dollarQuoted h)
  | case2 rest => exact .some rfl (Nat.le_add_left 2 _)
  | case3 c rest hne ih =>
    rw [dollarQuoted.eq_3 _ _ hne]
    cases rest with
    | nil => exact .none fun _ h => two_le_of_dollarQuoted h
    | cons d rest =>
      have hne' : ∀ more, c = '$' → d :: (rest ++ tail) = '$' :: more → False := by
        rintro more rfl hd
        cases hd
        exact hne rest rfl rfl
      rw [List.cons_append, List.cons_append, dollarQuoted.eq_3 _ _ hne']
      exact ih.succ

theorem tagQuoted_last {tag : List Char} {left : Option (List Char)} {text : List Char}
    (h : tagQuoted tag left text = some count) : LastOf text count '$' := by
  induction text generalizing left count with
  | nil => cases h
  | cons c text ih =>
    rcases left with _ | _ | ⟨t, ts⟩ <;> rw [tagQuoted] at h
    · exact LastOf.map ih h
    · split at h
      · cases h
        exact ⟨Nat.one_pos, congrArg some (eq_of_beq ‹_›)⟩
      · exact LastOf.map ih h
    · exact LastOf.map ih h

theorem tagQuoted_append {tag : List Char} {left : Option (List Char)} :
    Within id front.length (tagQuoted tag left (front ++ tail)) (tagQuoted tag left front) := by
  induction front generalizing left with
  | nil => exact .none fun _ h => (tagQuoted_last h).1
  | cons c front ih =>
    rw [List.cons_append]
    rcases left with _ | _ | ⟨t, ts⟩ <;> rw [tagQuoted, tagQuoted]
    · exact ih.succ
    · split
      · exact .some rfl (Nat.succ_le_succ (Nat.zero_le _))
      · exact ih.succ
    · exact ih.succ

theorem codePoint?_le {width : Nat} {text : List Char} {c : Char}
    (h : codePoint? width text = some c) : width ≤ text.length := by
  unfold codePoint? at h
  dsimp only at h
  split at h
  · cases h
  · rename_i hlt
    rw [List.length_take] at hlt
    omega

theorem codePoint?_append {width : Nat} :
    Within Prod.snd (front.length + 1) ((codePoint? width (front ++ tail)).map (·, width + 1))
      ((codePoint? width front).map (·, width + 1)) := by
  rcases Nat.lt_or_ge front.length width with hlt | hle
  · have hnone : codePoint? width front = none :=
      Option.eq_none_iff_forall_ne_some.mpr fun c h => Nat.not_le.mpr hlt (codePoint?_le h)
    rw [hnone]
    refine .none fun a h => ?_
    obtain ⟨_, -, rfl⟩ := Option.map_eq_some_iff.mp h
    exact Nat.succ_lt_succ hlt
  · rw [codePoint?, codePoint?, List.take_append_of_le_length hle]
    refine .same fun a h => ?_
    obtain ⟨_, -, rfl⟩ := Option.map_eq_some_iff.mp h
    exact Nat.succ_le_succ hle

theorem cEscape?_width {text : List Char} {c : Char} {width : Nat}
    (h : cEscape? text = some (c, width)) : 0 < width ∧ width ≤ text.length := by
  have hlength (rest : List Char) (p : Char → Bool) :
      ((rest.take 2).takeWhile p).length ≤ rest.length :=
    (List.takeWhile_prefix p).length_le.trans (List.take_prefix 2 rest).length_le
  unfold cEscape? at h
  dsimp only at h
  repeat' split at h
  all_goals first
    | (cases h; done)
    | (cases h; exact ⟨Nat.succ_pos _, Nat.succ_le_succ (Nat.zero_le _)⟩)
    | (obtain ⟨_, hpoint, ⟨⟩⟩ := Option.map_eq_some_iff.mp h
       first
         | exact ⟨Nat.succ_pos _, Nat.succ_le_succ (codePoint?_le hpoint)⟩
         | exact ⟨Nat.succ_pos _, Nat.succ_le_succ (hlength _ _)⟩)

/-- An escape that ends in a text is read whatever follows, unless that is a digit. -/
theorem cEscape?_append
    (htail : ∀ t ∈ tail.head?, (hexValue? t).isSome = false ∧ isOctal t = false) :
    Within Prod.snd front.length (cEscape? (front ++ tail)) (cEscape? front) := by
  cases front with
  | nil => exact .none fun _ h => (cEscape?_width h).1
  | cons d front =>
    rw [List.cons_append]
    have hhex : ((front ++ tail).take 2).takeWhile (fun t => (hexValue? t).isSome) =
        (front.take 2).takeWhile (fun t => (hexValue? t).isSome) :=
      takeWhile_take_append (fun t ht => (htail t ht).1) 2
    have hoctal : ((front ++ tail).take 2).takeWhile isOctal = (front.take 2).takeWhile isOctal :=
      takeWhile_take_append (fun t ht => (htail t ht).2) 2
    by_cases hu : d = 'u'
    · subst hu
      exact codePoint?_append
    by_cases hU : d = 'U'
    · subst hU
      exact codePoint?_append
    have hsame : cEscape? (d :: (front ++ tail)) = cEscape? (d :: front) := by
      by_cases hx : d = 'x'
      · subst hx
        simp only [cEscape?, hhex]
      · by_cases hplain : d ∈ ['b', 'f', 'n', 'r', 't']
        · simp only [List.mem_cons, List.not_mem_nil, or_false] at hplain
          rcases hplain with rfl | rfl | rfl | rfl | rfl <;> rfl
        · simp only [List.mem_cons, List.not_mem_nil, or_false, not_or] at hplain
          obtain ⟨h1, h2, h3, h4, h5⟩ := hplain
          rw [cEscape?.eq_10 d _ h1 h2 h3 h4 h5 hu hU hx,
            cEscape?.eq_10 d _ h1 h2 h3 h4 h5 hu hU hx, hoctal]
    rw [hsame]
    exact .same fun _ h => (cEscape?_width h).2

theorem cQuoted_backslash {rest : List Char} :
    cQuoted ('\\' :: rest) = some (value, count) ↔
      ∃ c width inner n, cEscape? rest = some (c, width) ∧ c ≠ '\x00' ∧
        cQuoted (rest.drop width) = some (inner, n) ∧ c :: inner = value ∧
          n + (width + 1) = count := by
  rw [cQuoted]
  rcases cEscape? rest with _ | ⟨c, width⟩
  · simp
  · by_cases hc : c = '\x00'
    · simp [hc]
    · simp only [beq_iff_eq, hc, if_false, prepend_eq_some]
      constructor
      · rintro ⟨inner, n, h⟩
        exact ⟨c, width, inner, n, rfl, hc, h⟩
      · rintro ⟨_, _, inner, n, ⟨⟩, -, h⟩
        exact ⟨inner, n, h⟩

theorem cQuoted_last {text : List Char} (h : cQuoted text = some (value, count)) :
    LastOf text count '\'' := by
  induction text using cQuoted.induct generalizing value count with
  | case1 => rw [cQuoted] at h; cases h
  | case2 rest ih =>
    rw [cQuoted] at h
    obtain ⟨inner, n, hn, -, rfl⟩ := prepend_eq_some.mp h
    exact LastOf.cons (LastOf.cons (ih hn))
  | case3 rest hne =>
    rw [cQuoted.eq_3 _ hne] at h
    cases h
    exact ⟨Nat.one_pos, rfl⟩
  | case4 rest hnone =>
    obtain ⟨c, width, inner, n, hc, -⟩ := cQuoted_backslash.mp h
    rw [hnone] at hc
    cases hc
  | case5 rest c width hc hnull =>
    obtain ⟨c', width', inner, n, hc', hnull', -⟩ := cQuoted_backslash.mp h
    rw [hc] at hc'
    cases hc'
    exact absurd (eq_of_beq hnull) hnull'
  | case6 rest c width hc hnull ih =>
    obtain ⟨c', width', inner, n, hc', -, hinner, -, rfl⟩ := cQuoted_backslash.mp h
    rw [hc] at hc'
    cases hc'
    exact LastOf.cons (LastOf.drop (ih hinner))
  | case7 c rest h1 h2 h3 ih =>
    rw [cQuoted.eq_5 c _ h1 h2 h3] at h
    obtain ⟨inner, n, hn, -, rfl⟩ := prepend_eq_some.mp h
    exact LastOf.cons (ih hn)

/-- What an escape leaves of a literal is read in a longer text as it is read alone. -/
theorem cQuoted_backslash_append {rest : List Char}
    (htail : ∀ t ∈ tail.head?, (hexValue? t).isSome = false ∧ isOctal t = false)
    (hrest : ∀ c width, cEscape? rest = some (c, width) → c ≠ '\x00' →
      Within Prod.snd (rest.drop width).length (cQuoted (rest.drop width ++ tail))
        (cQuoted (rest.drop width))) :
    Within Prod.snd (rest.length + 1) (cQuoted ('\\' :: (rest ++ tail)))
      (cQuoted ('\\' :: rest)) := by
  have hescape : Within Prod.snd rest.length (cEscape? (rest ++ tail)) (cEscape? rest) :=
    cEscape?_append htail
  rintro ⟨value, count⟩
  rw [cQuoted_backslash, cQuoted_backslash]
  constructor
  · rintro ⟨c, width, inner, n, hc, hnull, hinner, rfl, rfl⟩
    obtain ⟨hc', hwidth⟩ := (hescape _).mp hc
    obtain ⟨hinner', hn⟩ := (hrest c width hc hnull _).mp hinner
    rw [List.length_drop] at hn
    refine ⟨⟨c, width, inner, n, hc', hnull, ?_, rfl, rfl⟩, ?_⟩
    · rwa [List.drop_append_of_le_length hwidth]
    · dsimp only at hwidth hn ⊢
      omega
  · rintro ⟨⟨c, width, inner, n, hc, hnull, hinner, rfl, rfl⟩, hle⟩
    have hpos := (cQuoted_last hinner).1
    dsimp only at hle
    have hwidth : width ≤ rest.length := by omega
    have hc' := (hescape _).mpr ⟨hc, hwidth⟩
    rw [List.drop_append_of_le_length hwidth] at hinner
    refine ⟨c, width, inner, n, hc', hnull, (hrest c width hc' hnull _).mpr ⟨hinner, ?_⟩, rfl, rfl⟩
    rw [List.length_drop]
    dsimp only
    omega

/-- A literal with escapes that ends in a text ends there whatever follows, unless it is a quote or
a digit. -/
theorem cQuoted_append
    (htail : ∀ t ∈ tail.head?, (hexValue? t).isSome = false ∧ isOctal t = false ∧ t ≠ '\'') :
    Within Prod.snd front.length (cQuoted (front ++ tail)) (cQuoted front) := by
  have hdigit := fun t ht => And.intro (htail t ht).1 (htail t ht).2.1
  induction front using cQuoted.induct with
  | case1 =>
    rw [cQuoted]
    exact .none fun _ h => (cQuoted_last h).1
  | case2 rest ih =>
    rw [List.cons_append, List.cons_append, cQuoted, cQuoted]
    exact ih.prepend
  | case3 rest hne =>
    have hne' (more : List Char) (hmore : rest ++ tail = '\'' :: more) : False := by
      cases rest with
      | nil => exact (htail '\'' (by rw [List.nil_append] at hmore; rw [hmore]; rfl)).2.2 rfl
      | cons c rest =>
        cases hmore
        exact hne rest rfl
    rw [List.cons_append, cQuoted.eq_3 _ hne', cQuoted.eq_3 _ hne]
    exact .some rfl (Nat.succ_le_succ (Nat.zero_le _))
  | case4 rest hnone =>
    refine cQuoted_backslash_append hdigit fun c width hc => ?_
    rw [hnone] at hc
    cases hc
  | case5 rest c width hc hnull =>
    refine cQuoted_backslash_append hdigit fun c' width' hc' hnull' => ?_
    rw [hc] at hc'
    cases hc'
    exact absurd (eq_of_beq hnull) hnull'
  | case6 rest c width hc hnull ih =>
    refine cQuoted_backslash_append hdigit fun c' width' hc' hnull' => ?_
    rw [hc] at hc'
    cases hc'
    exact ih
  | case7 c rest h1 h2 h3 ih =>
    rw [List.cons_append, cQuoted.eq_5 c _ (fun _ hc => absurd hc h2) h2 h3,
      cQuoted.eq_5 c _ h1 h2 h3]
    exact ih.prepend

end Literal

end QueryBuild.Query

import QueryBuild.Proofs.Path
/-!
# Components of paths

Two paths may be written in different ways and still have the same components: empty segments and
`.` segments behind the first one carry no meaning. A name below a path is one more component. The
parent of such a path is the path as far as it carries meaning, in its own spelling.
-/

namespace QueryBuild

namespace Path

/-- The first segment of a path, which is empty at the root, and those behind it that carry
meaning. -/
def components (p : Path) : List (List Char) :=
  match Text.splitOn (· == '/') p.text.toList with
  | [] => []
  | first :: rest => first :: rest.filter (!isIdle ·)

/-- Two paths are the same, though they may be written in different ways. -/
structure Same (p q : Path) : Prop where
  isAbsolute : p.isAbsolute = q.isAbsolute
  components : p.components = q.components

/-- A path as it is written, as far as it carries meaning. -/
def tidy (p : Path) : Path :=
  ofSegments p.isAbsolute p.segments

theorem Same.refl (p : Path) : Same p p :=
  ⟨rfl, rfl⟩

theorem Same.symm {p q : Path} (h : Same p q) : Same q p :=
  ⟨h.isAbsolute.symm, h.components.symm⟩

theorem Same.trans {p q r : Path} (h : Same p q) (h' : Same q r) : Same p r :=
  ⟨h.isAbsolute.trans h'.isAbsolute, h.components.trans h'.components⟩

section Absolute

variable {p : Path}

theorem splitOn_of_isAbsolute (h : p.isAbsolute = true) :
    ∃ pieces, Text.splitOn (· == '/') p.text.toList = [] :: pieces := by
  obtain ⟨chars, hchars⟩ := List.head?_eq_some_iff.mp (beq_iff_eq.mp h)
  exact ⟨Text.splitOn (· == '/') chars, by rw [hchars, Text.splitOn]; rfl⟩

theorem segments_of_split {pieces : List (List Char)}
    (h : Text.splitOn (· == '/') p.text.toList = [] :: pieces) :
    p.segments = [] :: Text.dropTail isIdle pieces := by
  rw [segments, h, dropIdleTail]

theorem components_of_split {pieces : List (List Char)}
    (h : Text.splitOn (· == '/') p.text.toList = [] :: pieces) :
    p.components = [] :: pieces.filter (!isIdle ·) := by
  rw [components, h]

/-! ### Tidy paths -/

/-- A tidy path from the root is cut into its segments, the root apart. -/
theorem splitOn_tidy (h : p.isAbsolute = true) {pieces : List (List Char)}
    (hpieces : Text.splitOn (· == '/') p.text.toList = [] :: pieces) :
    p.tidy.isAbsolute = true ∧ Text.splitOn (· == '/') p.tidy.text.toList =
      [] :: if Text.dropTail isIdle pieces = [] then [[]] else Text.dropTail isIdle pieces := by
  rw [tidy, segments_of_split hpieces, h]
  cases hkept : Text.dropTail isIdle pieces with
  | nil => exact ⟨rfl, rfl⟩
  | cons piece kept =>
    -- no segment has a slash in it, so cutting undoes the join
    have hslash : ∀ segment ∈ [] :: piece :: kept, '/' ∉ segment := by
      intro segment hsegment hmem
      have hall : segment ∈ Text.splitOn (· == '/') p.text.toList := by
        rw [hpieces]
        rcases List.mem_cons.mp hsegment with rfl | hsegment
        · exact List.mem_cons_self
        · have hwhole := Text.dropTail_append_tail isIdle pieces
          rw [hkept] at hwhole
          rw [← hwhole]
          exact List.mem_cons_of_mem _ (List.mem_append_left _ hsegment)
      exact absurd (Text.not_of_mem_splitOn hall hmem) (by decide)
    have htext : (ofSegments true ([] :: piece :: kept)).text.toList =
        List.intercalate ['/'] ([] :: piece :: kept) := by
      rw [ofSegments]
      · exact String.toList_ofList
      · simp
      · simp
    constructor
    · rw [isAbsolute, htext, List.intercalate_cons_of_ne_nil (by simp)]
      rfl
    · rw [htext, Text.splitOn_intercalate '/' (by simp) hslash, if_neg (by simp)]

theorem tidy_same (h : p.isAbsolute = true) : p.tidy.Same p := by
  obtain ⟨pieces, hpieces⟩ := splitOn_of_isAbsolute h
  obtain ⟨habsolute, hsplit⟩ := splitOn_tidy h hpieces
  refine ⟨habsolute.trans h.symm, ?_⟩
  rw [components_of_split hsplit, components_of_split hpieces, ← Text.filter_dropTail pieces]
  split
  · rename_i hnone
    rw [hnone]
    rfl
  · rfl

theorem tidy_tidy (h : p.isAbsolute = true) : p.tidy.tidy = p.tidy := by
  obtain ⟨pieces, hpieces⟩ := splitOn_of_isAbsolute h
  obtain ⟨habsolute, hsplit⟩ := splitOn_tidy h hpieces
  have hsegments : p.tidy.segments = p.segments := by
    rw [segments_of_split hsplit, segments_of_split hpieces]
    split
    · rename_i hnone
      rw [hnone]
      rfl
    · rw [Text.dropTail_dropTail]
  rw [tidy, hsegments, habsolute, tidy, h]

theorem tidy_rooted {names : List String} (hnames : ∀ n ∈ names, IsOrdinary n) :
    (rooted names).tidy = rooted names := by
  rcases List.eq_nil_or_concat names with rfl | ⟨front, last, rfl⟩
  · rfl
  · rw [List.concat_eq_append] at hnames ⊢
    have hlast : IsOrdinary last := hnames last (by simp)
    have hfront : ∀ n ∈ front, IsOrdinary n := fun n hn => hnames n (by simp [hn])
    rw [tidy, segments_rooted hfront hlast, isAbsolute_rooted, ofSegments_rooted hfront hlast]

/-! ### Names below a path -/

variable {name : String}

theorem splitOn_join (h : p.isAbsolute = true) (hname : IsOrdinary name) : ∃ pieces,
    Text.splitOn (· == '/') (p.join name).text.toList = [] :: (pieces ++ [name.toList]) ∧
      p.segments = [] :: Text.dropTail isIdle pieces ∧
      p.components = [] :: pieces.filter (!isIdle ·) := by
  have hpiece : Text.splitOn (· == '/') name.toList = [name.toList] :=
    Text.splitOn_of_notMem hname.noSlash
  have hsome : p.text.isEmpty = false := by
    rw [← Bool.not_eq_true, String.isEmpty_iff]
    intro hempty
    rw [isAbsolute, hempty] at h
    cases h
  obtain ⟨all, hall⟩ := splitOn_of_isAbsolute h
  rw [join, isAbsolute_of_notMem hname.noSlash, hsome, if_neg (by decide), Bool.false_or]
  by_cases hslash : (p.text.toList.getLast? == some '/') = true
  · -- the slash is there already, and the segment behind it is idle
    obtain ⟨front, hfront⟩ := List.getLast?_eq_some_iff.mp (beq_iff_eq.mp hslash)
    have hcut := Text.splitOn_append_cons (p := (· == '/')) (beq_self_eq_true '/') front []
    obtain ⟨first, pieces, hpieces⟩ :=
      List.exists_cons_of_ne_nil (Text.splitOn_ne_nil (· == '/') front)
    rw [← hfront, hall, hpieces] at hcut
    obtain ⟨rfl, rfl⟩ := List.cons_eq_cons.mp hcut
    have hidle : isIdle [] = true := rfl
    refine ⟨pieces, ?_, ?_, ?_⟩
    · rw [if_pos hslash, String.toList_append, hfront, List.append_assoc, List.singleton_append,
        Text.splitOn_append_cons rfl, hpieces, hpiece]
      rfl
    · rw [segments_of_split hall]
      simp [Text.splitOn, Text.dropTail, hidle]
    · rw [components_of_split hall]
      simp [Text.splitOn, hidle]
  · refine ⟨all, ?_, segments_of_split hall, components_of_split hall⟩
    have htext : (p.text ++ "/" ++ name).toList = p.text.toList ++ '/' :: name.toList := by simp
    rw [if_neg hslash, htext, Text.splitOn_append_cons rfl, hall, hpiece]
    rfl

theorem isAbsolute_join (h : p.isAbsolute = true) (hname : IsOrdinary name) :
    (p.join name).isAbsolute = true := by
  obtain ⟨pieces, hsplit, -⟩ := splitOn_join h hname
  have htext := Text.intercalate_splitOn '/' (p.join name).text.toList
  rw [hsplit, List.intercalate_cons_of_ne_nil (by simp)] at htext
  rw [isAbsolute, ← htext]
  rfl

theorem components_join (h : p.isAbsolute = true) (hname : IsOrdinary name) :
    (p.join name).components = p.components ++ [name.toList] := by
  obtain ⟨pieces, hsplit, -, hcomponents⟩ := splitOn_join h hname
  have hkept : [name.toList].filter (!isIdle ·) = [name.toList] := by
    simp [isIdle_of_isOrdinary hname]
  rw [components_of_split hsplit, hcomponents, List.filter_append, hkept, List.cons_append]

/-- Below the same path, only the same name gives the same path. -/
theorem same_join_iff {q : Path} {other : String} (hsame : p.Same q) (h : p.isAbsolute = true)
    (hname : IsOrdinary name) (hother : IsOrdinary other) :
    (p.join name).Same (q.join other) ↔ name = other := by
  have hq : q.isAbsolute = true := hsame.isAbsolute ▸ h
  constructor
  · intro hjoined
    have hcomponents := hjoined.components
    rw [components_join h hname, components_join hq hother, hsame.components] at hcomponents
    simpa [String.toList_inj] using hcomponents
  · rintro rfl
    refine ⟨?_, ?_⟩
    · rw [isAbsolute_join h hname, isAbsolute_join hq hname]
    · rw [components_join h hname, components_join hq hname, hsame.components]

theorem segments_join (h : p.isAbsolute = true) (hname : IsOrdinary name) : ∃ pieces,
    (p.join name).segments = ([] :: pieces) ++ [name.toList] ∧
      dropIdleTail ([] :: pieces) = p.segments := by
  obtain ⟨pieces, hsplit, hsegments, -⟩ := splitOn_join h hname
  refine ⟨pieces, ?_, hsegments.symm⟩
  rw [segments_of_split hsplit, Text.dropTail_concat (isIdle_of_isOrdinary hname), List.cons_append]

theorem fileName?_join (h : p.isAbsolute = true) (hname : IsOrdinary name) :
    (p.join name).fileName? = some name := by
  obtain ⟨pieces, hsegments, -⟩ := segments_join h hname
  have hdots : name.toList ≠ ['.', '.'] := fun heq => hname.notDots (String.toList_inj.mp heq)
  have hidle := isIdle_of_isOrdinary hname
  rw [isIdle, Bool.or_eq_false_iff] at hidle
  rw [fileName?, hsegments, List.getLast?_concat]
  simp [hidle, hdots]

/-- The parent of a name below a path is the path without what carries no meaning at its end. -/
theorem parent?_join (h : p.isAbsolute = true) (hname : IsOrdinary name) :
    (p.join name).parent? = some p.tidy := by
  obtain ⟨pieces, hsegments, hfront⟩ := segments_join h hname
  rw [parent?, hsegments, isAbsolute_join h hname, tidy, h]
  split
  · rename_i hnone
    simp at hnone
  · rename_i hone
    simp at hone
  · rename_i hone
    simp at hone
  · rw [List.dropLast_concat, hfront]

theorem withFileName_join {other : String} (h : p.isAbsolute = true) (hname : IsOrdinary name) :
    (p.join name).withFileName other = p.tidy.join other := by
  rw [withFileName, fileName?_join h hname]
  simp only [parent?_join h hname, Option.getD_some]

end Absolute

/-! ### Paths of ordinary names -/

section Rooted

variable {names : List String} {last : String}

theorem fileName?_rooted (h : ∀ name ∈ names, IsOrdinary name) (hlast : IsOrdinary last) :
    (rooted (names ++ [last])).fileName? = some last := by
  rw [← join_rooted h hlast]
  exact fileName?_join (isAbsolute_rooted names) hlast

theorem parent?_rooted (h : ∀ name ∈ names, IsOrdinary name) (hlast : IsOrdinary last) :
    (rooted (names ++ [last])).parent? = some (rooted names) := by
  rw [← join_rooted h hlast, parent?_join (isAbsolute_rooted names) hlast, tidy_rooted h]

theorem withFileName_rooted (h : ∀ name ∈ names, IsOrdinary name) (hlast : IsOrdinary last)
    {other : String} (hother : IsOrdinary other) :
    (rooted (names ++ [last])).withFileName other = rooted (names ++ [other]) := by
  rw [← join_rooted h hlast, withFileName_join (isAbsolute_rooted names) hlast, tidy_rooted h,
    join_rooted h hother]

end Rooted

end Path

end QueryBuild

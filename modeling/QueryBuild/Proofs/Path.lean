import Mathlib.Data.List.Induction
import QueryBuild.Files.Resolve
import QueryBuild.Proofs.Text.Split
/-!
# Paths from the root

A path that is put together from ordinary names is taken apart into the same names: they are its
steps, the last one is its file name, and the others lead to its parent.
-/

namespace QueryBuild

/-- A name that stands for an entry of a directory. -/
structure IsOrdinary (name : String) : Prop where
  nonempty : name ≠ ""
  noSlash : '/' ∉ name.toList
  notDot : name ≠ "."
  notDots : name ≠ ".."

instance (name : String) : Decidable (IsOrdinary name) :=
  decidable_of_iff (name ≠ "" ∧ '/' ∉ name.toList ∧ name ≠ "." ∧ name ≠ "..")
    ⟨fun ⟨hnonempty, hslash, hdot, hdots⟩ => ⟨hnonempty, hslash, hdot, hdots⟩,
      fun h => ⟨h.nonempty, h.noSlash, h.notDot, h.notDots⟩⟩

namespace Path

/-- The path that leads from the root through some names. -/
def rooted (names : List String) : Path :=
  if names.isEmpty then ⟨"/"⟩ else ⟨String.join (names.map ("/" ++ ·))⟩

theorem rooted_concat (names : List String) (name : String) :
    rooted (names ++ [name]) = ⟨String.join (names.map ("/" ++ ·)) ++ ("/" ++ name)⟩ := by
  simp [rooted, String.join_append]

theorem splitOn_rooted {names : List String} (h : ∀ name ∈ names, IsOrdinary name) (last : String)
    (hlast : IsOrdinary last) :
    Text.splitOn (· == '/') (rooted (names ++ [last])).text.toList =
      ([] :: names.map String.toList) ++ [last.toList] := by
  have hfront : Text.splitOn (· == '/') (String.join (names.map ("/" ++ ·))).toList =
      [] :: names.map String.toList := by
    induction names using List.reverseRecOn with
    | nil => rfl
    | append_singleton names name ih =>
      have hcut : (String.join ((names ++ [name]).map ("/" ++ ·))).toList =
          (String.join (names.map ("/" ++ ·))).toList ++ '/' :: name.toList := by
        simp [String.join_append]
      rw [hcut, Text.splitOn_append_cons rfl, ih fun n hn => h n (by simp [hn]),
        Text.splitOn_of_notMem (h name (by simp)).noSlash]
      simp
  have hcut : (rooted (names ++ [last])).text.toList =
      (String.join (names.map ("/" ++ ·))).toList ++ '/' :: last.toList := by
    rw [rooted_concat]
    simp
  rw [hcut, Text.splitOn_append_cons rfl, hfront, Text.splitOn_of_notMem hlast.noSlash]

theorem isAbsolute_of_notMem {name : String} (h : '/' ∉ name.toList) :
    (Path.mk name).isAbsolute = false := by
  rw [isAbsolute, beq_eq_false_iff_ne]
  exact fun hhead => h (List.mem_of_head? hhead)

theorem isIdle_of_isOrdinary {name : String} (h : IsOrdinary name) :
    isIdle name.toList = false := by
  have hdot : name.toList ≠ ['.'] := fun heq => h.notDot (String.toList_inj.mp heq)
  have hnil : name.toList ≠ [] := fun heq => h.nonempty (String.toList_inj.mp heq)
  simp [isIdle, hdot, hnil]

theorem segments_rooted {names : List String} (h : ∀ name ∈ names, IsOrdinary name) {last : String}
    (hlast : IsOrdinary last) :
    segments (rooted (names ++ [last])) = ([] :: names.map String.toList) ++ [last.toList] := by
  rw [segments, splitOn_rooted h last hlast, List.cons_append, dropIdleTail,
    Text.dropTail_concat (isIdle_of_isOrdinary hlast)]

theorem isAbsolute_rooted (names : List String) : (rooted names).isAbsolute = true := by
  rcases List.eq_nil_or_concat names with rfl | ⟨front, last, rfl⟩
  · rfl
  · rw [List.concat_eq_append, rooted_concat]
    cases front <;> simp [isAbsolute, String.join_cons]

theorem ofSegments_rooted {names : List String} (h : ∀ name ∈ names, IsOrdinary name)
    {last : String} (hlast : IsOrdinary last) :
    ofSegments true (([] :: names.map String.toList) ++ [last.toList]) =
      rooted (names ++ [last]) := by
  obtain ⟨piece, pieces, hpieces⟩ : ∃ piece pieces,
      names.map String.toList ++ [last.toList] = piece :: pieces := by
    cases names <;> exact ⟨_, _, rfl⟩
  have hjoined := Text.intercalate_splitOn '/' (rooted (names ++ [last])).text.toList
  rw [splitOn_rooted h last hlast] at hjoined
  rw [List.cons_append, hpieces] at hjoined ⊢
  rw [ofSegments, hjoined, String.ofList_toList]
  all_goals simp

theorem getLast?_rooted (names : List String) {last : String} (hlast : IsOrdinary last) :
    (rooted (names ++ [last])).text.toList.getLast? ≠ some '/' := by
  have htext : (rooted (names ++ [last])).text.toList =
      ((String.join (names.map ("/" ++ ·))).toList ++ ['/']) ++ last.toList := by
    rw [rooted_concat]
    simp
  have hnonempty : last.toList ≠ [] := fun heq => hlast.nonempty (String.toList_inj.mp heq)
  rw [htext, List.getLast?_append_of_ne_nil _ hnonempty]
  intro hslash
  exact hlast.noSlash (List.mem_of_getLast? hslash)

theorem text_rooted_ne (names : List String) : (rooted names).text ≠ "" := by
  intro hempty
  have habsolute := isAbsolute_rooted names
  rw [isAbsolute, hempty] at habsolute
  exact absurd habsolute (by decide)

theorem join_rooted {names : List String} (h : ∀ name ∈ names, IsOrdinary name) {last : String}
    (hlast : IsOrdinary last) : (rooted names).join last = rooted (names ++ [last]) := by
  rw [join, isAbsolute_of_notMem hlast.noSlash]
  rcases List.eq_nil_or_concat names with rfl | ⟨front, name, rfl⟩
  · simp [rooted]
  · rw [List.concat_eq_append] at h ⊢
    have hend := getLast?_rooted front (h name (by simp))
    have hsome := text_rooted_ne (front ++ [name])
    rw [if_neg (by decide), if_neg (by simp [hend, hsome]), rooted_concat, rooted_concat]
    simp [String.join_append, String.append_assoc]

theorem steps_rooted {names : List String} (h : ∀ name ∈ names, IsOrdinary name) :
    FileSystem.steps (rooted names).text = names := by
  rcases List.eq_nil_or_concat names with rfl | ⟨front, last, rfl⟩
  · cbv
  · rw [List.concat_eq_append] at h ⊢
    have hlast : IsOrdinary last := h last (by simp)
    have hfront : ∀ n ∈ front, IsOrdinary n := fun n hn => h n (by simp [hn])
    have hend : ((rooted (front ++ [last])).text.toList.getLast? == some '/') = false := by
      simpa using getLast?_rooted front hlast
    have hkept : ((front ++ [last]).map String.toList).filter (· != []) =
        (front ++ [last]).map String.toList := by
      rw [List.filter_eq_self]
      intro piece hpiece
      obtain ⟨name, hname, rfl⟩ := List.mem_map.mp hpiece
      simpa using fun heq => (h name hname).nonempty (String.toList_inj.mp heq)
    have hpieces : ([] :: front.map String.toList) ++ [last.toList] =
        [] :: (front ++ [last]).map String.toList := by
      simp
    rw [FileSystem.steps, splitOn_rooted hfront last hlast, hend, hpieces,
      List.filter_cons_of_neg (by simp), hkept]
    simp

end Path

end QueryBuild

import Mathlib.Data.List.TakeWhile
import QueryBuild.Proofs.Graph.Insertion
import QueryBuild.Reference
/-!
# File names between quotes

A text refers to a unit wherever it matches a pattern: a quote, some characters that are no quotes,
the extension of outputs, and a quote. A match uses up its closing quote. So the matches can also
be read off the pieces between the quotes: of two neighbours only one can be a match.
-/

namespace QueryBuild

namespace Reference

/-! ### The pattern -/

/-- What the names of outputs end in. -/
def ending : List Char := ['.', 'c', 's', 'v']

/-- A match of the pattern with its stem: a quote, one or more characters that are no quotes, the
ending, and a quote, which may be of the other kind. -/
def IsMatch (stem found : List Char) : Prop :=
  ∃ opening closing, isQuote opening = true ∧ isQuote closing = true ∧ stem ≠ [] ∧
    (∀ c ∈ stem, isQuote c = false) ∧ found = opening :: (stem ++ ending ++ [closing])

/-- A match stands at the front of a text. -/
def BeginsWithMatch (text : List Char) : Prop :=
  ∃ stem found rest, IsMatch stem found ∧ text = found ++ rest

/-- The stems of the matches in a text: the first match is the leftmost one, and the search goes on
behind its end. -/
inductive Leftmost : List Char → List (List Char) → Prop
  | none {text : List Char}
      (nowhere : ∀ front rest, text = front ++ rest → ¬ BeginsWithMatch rest) : Leftmost text []
  | next {front found rest stem : List Char} {stems : List (List Char)}
      (here : IsMatch stem found)
      (first : ∀ front' rest', front ++ (found ++ rest) = front' ++ rest' →
        front'.length < front.length → ¬ BeginsWithMatch rest')
      (later : Leftmost rest stems) : Leftmost (front ++ (found ++ rest)) (stem :: stems)

/-! ### The pieces between quotes -/

/-- A piece ends like the name of an output and has a stem. -/
def isFileName (piece : List Char) : Bool :=
  ending.isSuffixOf piece && 4 < piece.length

/-- Walks over pieces, each but the last with a quote behind it, and takes the stems of file names.
`taken` tells whether the piece in front was a match; its closing quote opens nothing. -/
def walk (taken : Bool) : List (List Char) → List (List Char)
  | piece :: next :: pieces =>
    if !taken && isFileName piece then
      piece.take (piece.length - 4) :: walk true (next :: pieces)
    else walk false (next :: pieces)
  | _ => []

/-- What follows the last slash or backslash of a path. -/
def IsBase (path base : List Char) : Prop :=
  ∃ front, path = front ++ base ∧ (∀ c ∈ base, c ≠ '/' ∧ c ≠ '\\') ∧
    ∀ c ∈ front.getLast?, c = '/' ∨ c = '\\'

/-! ### One piece -/

theorem stem?_eq_some {piece stem : List Char} :
    stem? piece = some stem ↔ stem ≠ [] ∧ piece = stem ++ ending := by
  constructor
  · intro hstem
    rw [stem?] at hstem
    split at hstem
    · rename_i c before hreverse
      cases hstem
      refine ⟨by simp, ?_⟩
      rw [← List.reverse_reverse piece, hreverse]
      simp [ending]
    · cases hstem
  · rintro ⟨hne, rfl⟩
    obtain ⟨front, c, rfl⟩ := List.eq_nil_or_concat stem |>.resolve_left hne
    simp [stem?, ending]

theorem isFileName_iff {piece : List Char} :
    isFileName piece = true ↔ ∃ stem, stem ≠ [] ∧ piece = stem ++ ending := by
  rw [isFileName, Bool.and_eq_true, List.isSuffixOf_iff_suffix, decide_eq_true_eq]
  constructor
  · rintro ⟨⟨stem, rfl⟩, hlong⟩
    refine ⟨stem, ?_, rfl⟩
    rintro rfl
    simp [ending] at hlong
  · rintro ⟨stem, hne, rfl⟩
    refine ⟨List.suffix_append stem ending, ?_⟩
    have hpos := List.length_pos_of_ne_nil hne
    simp only [List.length_append, ending, List.length_cons, List.length_nil]
    omega

/-- A piece has a stem exactly if it is a file name, and then it is all but the ending. -/
theorem stem?_eq (piece : List Char) :
    stem? piece = if isFileName piece then some (piece.take (piece.length - 4)) else none := by
  by_cases hname : isFileName piece = true
  · rw [if_pos hname, stem?_eq_some]
    obtain ⟨stem, hne, rfl⟩ := isFileName_iff.mp hname
    simpa [ending] using hne
  · rw [if_neg hname, Option.eq_none_iff_forall_ne_some]
    intro stem hstem
    exact hname (isFileName_iff.mpr ⟨stem, stem?_eq_some.mp hstem⟩)

theorem cut_at_quote {text after : List Char} {quote : Char}
    (h : (text.dropWhile fun c => !isQuote c) = quote :: after) :
    text = (text.takeWhile fun c => !isQuote c) ++ quote :: after ∧ isQuote quote = true ∧
      ∀ c ∈ text.takeWhile fun c => !isQuote c, isQuote c = false := by
  refine ⟨?_, ?_, fun c hc => ?_⟩
  · rw [← h, List.takeWhile_append_dropWhile]
  · have hhead := List.head?_dropWhile_not (fun c => !isQuote c) text
    rw [h] at hhead
    simpa using hhead
  · simpa using List.mem_takeWhile_imp hc

theorem no_quote_of_dropWhile {text : List Char} (h : (text.dropWhile fun c => !isQuote c) = []) :
    ∀ c ∈ text, isQuote c = false := by
  intro c hc
  simpa using List.dropWhile_eq_nil_iff.mp h c hc

/-! ### The scan as a walk -/

theorem walk_true (pieces : List (List Char)) : walk true pieces = walk false pieces.tail := by
  match pieces with
  | [] => rfl
  | [_] => rfl
  | piece :: next :: pieces => rw [walk]; simp

theorem walk_false_cons (piece : List Char) {pieces : List (List Char)} (hne : pieces ≠ []) :
    walk false (piece :: pieces) =
      match stem? piece with
      | some stem => stem :: walk false pieces.tail
      | none => walk false pieces := by
  cases pieces with
  | nil => exact absurd rfl hne
  | cons next pieces =>
    rw [walk, stem?_eq, walk_true]
    cases isFileName piece <;> rfl

theorem tail_pieces {c : Char} (hc : isQuote c = true) (rest : List Char) :
    ((c :: rest).splitOnP isQuote).tail = rest.splitOnP isQuote := by
  rw [List.splitOnP_cons_eq_if_modifyHead, if_pos hc, List.tail_cons]

theorem pieces_append {piece after : List Char} {quote : Char}
    (hpiece : ∀ c ∈ piece, isQuote c = false) (hquote : isQuote quote = true) :
    (piece ++ quote :: after).splitOnP isQuote = piece :: after.splitOnP isQuote := by
  rw [List.splitOnP_append_cons _ _ hquote, List.splitOnP_eq_singleton hpiece]
  rfl

/-- The scan of a text takes what the walk takes over the pieces behind the first quote. -/
theorem stems_eq_walk (text : List Char) :
    stems text = walk false (text.splitOnP isQuote).tail := by
  fun_induction stems text with
  | case1 => rfl
  | case2 c rest hc h =>
    rw [tail_pieces hc, List.splitOnP_eq_singleton (no_quote_of_dropWhile h)]
    rfl
  | case3 c rest hc quote after h stem hstem ih =>
    obtain ⟨hrest, hquote, hpiece⟩ := cut_at_quote h
    rw [tail_pieces hc, hrest, pieces_append hpiece hquote,
      walk_false_cons _ (List.splitOnP_ne_nil _ _), hstem, ih]
  | case4 c rest hc quote after h hstem ih =>
    obtain ⟨hrest, hquote, hpiece⟩ := cut_at_quote h
    rw [tail_pieces hc, hrest, pieces_append hpiece hquote,
      walk_false_cons _ (List.splitOnP_ne_nil _ _), hstem, ih, tail_pieces hquote]
  | case5 c rest hc ih =>
    rw [List.splitOnP_cons_eq_if_modifyHead, if_neg hc, List.tail_modifyHead, ih]

/-! ### The scan as a search for matches -/

/-- Two texts that are cut at their first quotes are cut at the same place. -/
theorem cut_unique {piece piece' after after' : List Char} {quote quote' : Char}
    (hpiece : ∀ c ∈ piece, isQuote c = false) (hpiece' : ∀ c ∈ piece', isQuote c = false)
    (hquote : isQuote quote = true) (hquote' : isQuote quote' = true)
    (h : piece ++ quote :: after = piece' ++ quote' :: after') :
    piece = piece' ∧ after = after' := by
  have htake : ∀ {xs rest : List Char} {q : Char}, (∀ c ∈ xs, isQuote c = false) →
      isQuote q = true → ((xs ++ q :: rest).takeWhile fun c => !isQuote c) = xs := by
    intro xs rest q hxs hq
    rw [List.takeWhile_append_of_pos (by simpa using hxs), List.takeWhile_cons]
    simp [hq]
  have hsame : piece = piece' := by rw [← htake hpiece hquote, h, htake hpiece' hquote']
  subst hsame
  exact ⟨rfl, (List.cons.inj (List.append_cancel_left h)).2⟩

theorem no_quote_of_stem {stem : List Char} (hstem : ∀ c ∈ stem, isQuote c = false) :
    ∀ c ∈ stem ++ ending, isQuote c = false := by
  have hending : ∀ c ∈ ending, isQuote c = false := by simp [ending, isQuote]
  intro c hc
  exact (List.mem_append.mp hc).elim (hstem c) (hending c)

/-- Where a match begins there is a quote, and the next quote closes a file name. -/
theorem file_name_of_beginsWithMatch {c : Char} {rest : List Char}
    (h : BeginsWithMatch (c :: rest)) :
    isQuote c = true ∧ ∃ stem closing behind, stem ≠ [] ∧
      (∀ d ∈ stem ++ ending, isQuote d = false) ∧ isQuote closing = true ∧
      rest = (stem ++ ending) ++ closing :: behind := by
  obtain ⟨stem, found, behind, hmatch, htext⟩ := h
  obtain ⟨opening, closing, hopening, hclosing, hne, hstem, rfl⟩ := hmatch
  obtain ⟨rfl, hrest⟩ := List.cons.inj htext
  exact ⟨hopening, stem, closing, behind, hne, no_quote_of_stem hstem, hclosing,
    by simpa using hrest⟩

theorem IsMatch.unique {stem stem' found found' rest rest' : List Char} (h : IsMatch stem found)
    (h' : IsMatch stem' found') (htext : found ++ rest = found' ++ rest') :
    stem = stem' ∧ rest = rest' := by
  obtain ⟨opening, closing, -, hclosing, -, hstem, rfl⟩ := h
  obtain ⟨opening', closing', -, hclosing', -, hstem', rfl⟩ := h'
  have hcut : (stem ++ ending) ++ closing :: rest = (stem' ++ ending) ++ closing' :: rest' := by
    simpa using (List.cons.inj htext).2
  obtain ⟨hbody, hrest⟩ := cut_unique (no_quote_of_stem hstem) (no_quote_of_stem hstem')
    hclosing hclosing' hcut
  exact ⟨List.append_cancel_right hbody, hrest⟩

theorem Leftmost.unique {text : List Char} {stems stems' : List (List Char)}
    (h : Leftmost text stems) (h' : Leftmost text stems') : stems = stems' := by
  induction h generalizing stems' with
  | none nowhere =>
    cases h' with
    | none => rfl
    | @next front found rest stem _ here _ _ =>
      exact absurd ⟨stem, found, rest, here, rfl⟩ (nowhere front (found ++ rest) rfl)
  | @next front found rest stem stems here first later ih =>
    generalize htext : front ++ (found ++ rest) = text at h'
    cases h' with
    | none nowhere =>
      exact absurd ⟨stem, found, rest, here, rfl⟩ (nowhere front (found ++ rest) htext.symm)
    | @next front' found' rest' stem' stems' here' first' later' =>
      have hlength : front.length = front'.length := by
        rcases lt_trichotomy front.length front'.length with hlt | heq | hlt
        · exact absurd ⟨stem, found, rest, here, rfl⟩ (first' front _ htext.symm hlt)
        · exact heq
        · exact absurd ⟨stem', found', rest', here', rfl⟩ (first front' _ htext hlt)
      obtain ⟨-, hrest⟩ := List.append_inj htext hlength
      obtain ⟨rfl, rfl⟩ := here.unique here' hrest
      rw [ih later']

theorem Leftmost.skip {c : Char} {text : List Char} {stems : List (List Char)}
    (h : Leftmost text stems) (hnot : ¬ BeginsWithMatch (c :: text)) :
    Leftmost (c :: text) stems := by
  cases h with
  | none nowhere =>
    refine .none fun front rest hsplit => ?_
    cases front with
    | nil =>
      rw [List.nil_append] at hsplit
      rwa [← hsplit]
    | cons _ front => exact nowhere front rest (List.cons.inj hsplit).2
  | @next front found rest stem stems here first later =>
    suffices hnext : Leftmost ((c :: front) ++ (found ++ rest)) (stem :: stems) from hnext
    refine .next here (fun front' rest' hsplit hlt => ?_) later
    cases front' with
    | nil =>
      rw [List.nil_append] at hsplit
      rwa [← hsplit]
    | cons _ front' =>
      exact first front' rest' (List.cons.inj hsplit).2 (Nat.lt_of_succ_lt_succ hlt)

theorem Leftmost.skip_piece {piece text : List Char} {stems : List (List Char)}
    (h : Leftmost text stems) (hpiece : ∀ c ∈ piece, isQuote c = false) :
    Leftmost (piece ++ text) stems := by
  induction piece with
  | nil => exact h
  | cons c piece ih =>
    refine .skip (ih fun other hother => hpiece other (by simp [hother])) fun hmatch => ?_
    have hopening := (file_name_of_beginsWithMatch hmatch).1
    rw [hpiece c (by simp)] at hopening
    cases hopening

/-- The scan of a text finds the leftmost matches. -/
theorem leftmost_stems (text : List Char) : Leftmost text (stems text) := by
  have hend : Leftmost [] [] := by
    refine .none fun front rest hsplit => ?_
    rintro ⟨stem, found, behind, ⟨opening, closing, -, -, -, -, rfl⟩, rfl⟩
    simp at hsplit
  fun_induction stems text with
  | case1 => exact hend
  | case2 c rest hc h =>
    have hrest := no_quote_of_dropWhile h
    have hnone : Leftmost rest [] := by
      rw [← List.append_nil rest]
      exact hend.skip_piece hrest
    refine hnone.skip fun hmatch => ?_
    -- a match here would need one more quote
    obtain ⟨-, stem, closing, behind, -, -, hclosing, rfl⟩ := file_name_of_beginsWithMatch hmatch
    rw [hrest closing (by simp)] at hclosing
    cases hclosing
  | case3 c rest hc quote after h stem hstem ih =>
    obtain ⟨hrest, hquote, hpiece⟩ := cut_at_quote h
    obtain ⟨hne, heq⟩ := stem?_eq_some.mp hstem
    rw [heq] at hrest hpiece
    have hmatch : IsMatch stem (c :: (stem ++ ending ++ [quote])) :=
      ⟨c, quote, hc, hquote, hne, fun d hd => hpiece d (by simp [hd]), rfl⟩
    have hnext : Leftmost ([] ++ (c :: (stem ++ ending ++ [quote]) ++ after))
        (stem :: stems after) := by
      refine .next hmatch ?_ ih
      intro front' rest' _ hlt
      exact absurd hlt (Nat.not_lt_zero _)
    rw [hrest]
    simpa using hnext
  | case4 c rest hc quote after h hstem ih =>
    obtain ⟨hrest, hquote, hpiece⟩ := cut_at_quote h
    have hfound : Leftmost rest (stems (quote :: after)) := by
      rw [hrest]
      exact ih.skip_piece hpiece
    refine hfound.skip fun hmatch => ?_
    -- a match here would make the piece a file name
    obtain ⟨-, stem, closing, behind, hne, hplain, hclosing, hcut⟩ :=
      file_name_of_beginsWithMatch hmatch
    obtain ⟨hname, -⟩ := cut_unique hpiece hplain hquote hclosing (hrest.symm.trans hcut)
    rw [stem?_eq_some.mpr ⟨hne, hname⟩] at hstem
    cases hstem
  | case5 c rest hc ih =>
    have hplain : ∀ d ∈ [c], isQuote d = false := by simpa using hc
    exact ih.skip_piece hplain

/-! ### The names -/

theorem isBase_iff {path base : List Char} : IsBase path base ↔ base = baseName path := by
  constructor
  · rintro ⟨front, rfl, hbase, hfront⟩
    have hstop : (front.reverse.takeWhile fun c => c != '/' && c != '\\') = [] := by
      cases hreverse : front.reverse with
      | nil => rfl
      | cons last before =>
        have hlast : front.getLast? = some last := by
          rw [← List.head?_reverse, hreverse]
          rfl
        rcases hfront last hlast with rfl | rfl <;> rfl
    rw [baseName, List.reverse_append, List.takeWhile_append_of_pos, hstop]
    · simp
    · intro c hc
      simpa using hbase c (List.mem_reverse.mp hc)
  · rintro rfl
    refine ⟨(path.reverse.dropWhile fun c => c != '/' && c != '\\').reverse, ?_, ?_, ?_⟩
    · rw [baseName, ← List.reverse_append, List.takeWhile_append_dropWhile, List.reverse_reverse]
    · intro c hc
      simpa using List.mem_takeWhile_imp (List.mem_reverse.mp hc)
    · intro c hc
      rw [List.getLast?_reverse] at hc
      have hhead := List.head?_dropWhile_not (fun c => c != '/' && c != '\\') path.reverse
      rw [Option.mem_def.mp hc] at hhead
      simpa [imp_iff_not_or] using hhead

theorem mem_names {sql name : String} :
    name ∈ names sql ↔ name ≠ "" ∧ ∃ stem ∈ stems sql.toList, name.toList = baseName stem := by
  rw [names, Names.mem_ofList, List.mem_filterMap]
  constructor
  · rintro ⟨stem, hstem, hname⟩
    by_cases hempty : baseName stem = []
    · simp [hempty] at hname
    · have hname : String.ofList (baseName stem) = name := by simpa [hempty] using hname
      subst hname
      exact ⟨by simpa using hempty, stem, hstem, by simp⟩
  · rintro ⟨hne, stem, hstem, hname⟩
    refine ⟨stem, hstem, ?_⟩
    rw [← hname]
    simp [hne]

/-- The references of a text are the base names of its leftmost matches, as a sorted list without
repetitions, and these matches are those that a walk over the pieces between the quotes takes. -/
theorem names_of_matches (sql : String) :
    (∀ stems, Leftmost sql.toList stems ↔ stems = walk false (sql.toList.splitOnP isQuote).tail) ∧
    (names sql).Pairwise (· < ·) ∧
    ∀ name, name ∈ names sql ↔ name ≠ "" ∧
      ∃ stem ∈ walk false (sql.toList.splitOnP isQuote).tail, IsBase stem name.toList := by
  rw [← stems_eq_walk]
  refine ⟨fun stems' => ⟨fun h => h.unique (leftmost_stems _), ?_⟩, Names.pairwise_ofList _, ?_⟩
  · rintro rfl
    exact leftmost_stems _
  · intro name
    simp only [mem_names, isBase_iff]

/-- A closing quote of a match opens nothing, so that `b` is no reference; one of a piece that is no
file name does, whatever its kind. -/
example : names "'x.csv'b.csv' 'y' \"data/c.csv'" = ["c", "x"] := by
  cbv

end Reference

end QueryBuild

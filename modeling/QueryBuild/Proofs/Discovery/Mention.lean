import QueryBuild.Proofs.Build.Failure
import QueryBuild.Proofs.Reference
/-!
# Mentioned outputs

A text refers to a unit if it has the name of the unit's output between two quotes, with or without
a path in front, whatever the rest of the text is like. Only the end of another file name could take
the opening quote away. Such a unit is built first.
-/

namespace QueryBuild

namespace Reference

theorem cut_at_last_quote (text : List Char) :
    (∀ c ∈ text, isQuote c = false) ∨
      ∃ front quote last, text = front ++ quote :: last ∧ isQuote quote = true ∧
        ∀ c ∈ last, isQuote c = false := by
  induction text with
  | nil => exact Or.inl (by simp)
  | cons c text ih =>
    rcases ih with hplain | ⟨front, quote, last, rfl, hquote, hlast⟩
    · cases hc : isQuote c with
      | false => exact Or.inl (by simpa [hc] using hplain)
      | true => exact Or.inr ⟨[], c, text, rfl, hc, hplain⟩
    · exact Or.inr ⟨c :: front, quote, last, rfl, hquote, hlast⟩

/-- Behind a piece that is no file name the walk goes on as from the start. -/
theorem walk_behind (taken : Bool) (front : List (List Char)) {last : List Char}
    (hlast : isFileName last = false) {pieces : List (List Char)} (hne : pieces ≠ []) :
    ∃ before, walk taken (front ++ last :: pieces) = before ++ walk false pieces := by
  obtain ⟨next, pieces, rfl⟩ := List.exists_cons_of_ne_nil hne
  induction front generalizing taken with
  | nil => exact ⟨[], by simp [walk, hlast]⟩
  | cons piece front ih =>
    obtain ⟨second, rest, hrest⟩ :=
      List.exists_cons_of_ne_nil (l := front ++ last :: next :: pieces) (by simp)
    rw [List.cons_append, hrest, walk, ← hrest]
    split
    · obtain ⟨before, hbefore⟩ := ih true
      exact ⟨_ :: before, by rw [hbefore, List.cons_append]⟩
    · exact ih false

theorem not_isFileName_of_suffix {text last : List Char} (htext : ¬ ending <:+ text)
    (hlast : last <:+ text) : isFileName last = false := by
  have hnot : ending.isSuffixOf last = false := by
    rw [← Bool.not_eq_true, List.isSuffixOf_iff_suffix]
    exact fun hending => htext (hending.trans hlast)
  rw [isFileName, hnot, Bool.false_and]

/-- A file name between quotes is found, unless the text in front of it ends like a file name. -/
theorem mem_stems_of_quoted {front stem : List Char} {opening closing : Char}
    (hopening : isQuote opening = true) (hclosing : isQuote closing = true) (hne : stem ≠ [])
    (hstem : ∀ c ∈ stem, isQuote c = false) (hfront : ¬ ending <:+ front) (back : List Char) :
    stem ∈ stems (front ++ opening :: (stem ++ ending ++ closing :: back)) := by
  have hpieces : (front ++ opening :: (stem ++ ending ++ closing :: back)).splitOnP isQuote =
      front.splitOnP isQuote ++ (stem ++ ending) :: back.splitOnP isQuote := by
    rw [List.splitOnP_append_cons _ _ hopening, pieces_append (no_quote_of_stem hstem) hclosing]
  have htaken : stem ∈ walk false ((stem ++ ending) :: back.splitOnP isQuote) := by
    rw [walk_false_cons _ (List.splitOnP_ne_nil _ _), stem?_eq_some.mpr ⟨hne, rfl⟩]
    exact List.mem_cons_self
  rw [stems_eq_walk, hpieces]
  rcases cut_at_last_quote front with hplain | ⟨before, quote, last, rfl, hquote, hplain⟩
  · rw [List.splitOnP_eq_singleton hplain]
    exact htaken
  · have hlast := not_isFileName_of_suffix hfront
      ((List.suffix_cons quote last).trans (List.suffix_append before (quote :: last)))
    obtain ⟨first, rest, hbefore⟩ :=
      List.exists_cons_of_ne_nil (List.splitOnP_ne_nil isQuote before)
    rw [List.splitOnP_append_cons _ _ hquote, List.splitOnP_eq_singleton hplain, hbefore,
      List.append_assoc, List.cons_append, List.tail_cons]
    obtain ⟨found, hfound⟩ := walk_behind false rest hlast
      (List.cons_ne_nil (stem ++ ending) (back.splitOnP isQuote))
    rw [List.singleton_append, hfound]
    exact List.mem_append_right found htaken

end Reference

namespace UnitGraph

open Reference

/-- A text that has the name of a unit's output between two quotes refers to the unit, unless a file
name ends in front of the quotes. If it is the text of a discovered unit, that unit depends on the
other one, and stands behind it in every order of the graph. -/
theorem mentioned_unit_first {front path back name sql : String} {opening closing : Char}
    (hopening : isQuote opening = true) (hclosing : isQuote closing = true)
    (hpath : ∀ c ∈ path.toList, isQuote c = false) (hbase : IsBase path.toList name.toList)
    (hname : name ≠ "") (hfront : ¬ ".csv".toList <:+ front.toList)
    (hsql : sql = front ++ opening.toString ++ path ++ ".csv" ++ closing.toString ++ back) :
    name ∈ names sql ∧
      ∀ (fs : FileSystem) (directory : Path) (g : UnitGraph) (u : BuildUnit),
        (discover fs directory).2 = .ok g → u ∈ g.units → u.sourceText fs = .ok sql →
        name ∈ g.units.map BuildUnit.name →
        name ∈ g.graph.parents u.name ∧
          ∀ order, g.graph.resolveOrder = .ok order →
            u.name ∈ order ∧ order.idxOf name < order.idxOf u.name := by
  have hne : path.toList ≠ [] := by
    intro hempty
    rw [isBase_iff, hempty] at hbase
    exact hname (String.toList_inj.mp hbase)
  have hchars : sql.toList =
      front.toList ++ opening :: (path.toList ++ ending ++ closing :: back.toList) := by
    simp [hsql, ending]
  have hnames : name ∈ names sql := by
    refine mem_names.mpr ⟨hname, path.toList, ?_, isBase_iff.mp hbase⟩
    rw [hchars]
    exact mem_stems_of_quoted hopening hclosing hne hpath hfront back.toList
  refine ⟨hnames, fun fs directory g u hok hu hread hunit => ?_⟩
  have hlinked := linked_of_discoverWith hok
  have hdepends : g.graph.DependsOn u.name name :=
    (hlinked.dependsOn_iff u hu sql hread name).mpr ⟨hnames, hunit⟩
  refine ⟨hdepends, fun order horder => ?_⟩
  obtain ⟨-, hall, hrespects⟩ := hlinked.wellFormed.of_resolveOrder horder
  have hmem : u.name ∈ order := (hall _).mpr (hlinked.wellFormed.known _ _ hdepends).1
  exact ⟨hmem, hrespects.idxOf_lt hmem hdepends⟩

end UnitGraph

namespace BuildPlan

open Reference

/-- A stray apostrophe, another file name, and quotes of two kinds hide no reference; and the second
of two units stands behind the first one, which it mentions. -/
theorem first_mentioned_by_second :
    "a" ∈ Reference.names "-- it's raw\nSELECT * FROM 'x.csv' JOIN \"data/a.csv'" ∧
      "a" ∈ Sample.graph.parents "b" ∧
      ∃ order, Sample.graph.resolveOrder = .ok order ∧ order.idxOf "a" < order.idxOf "b" := by
  have hstray := @UnitGraph.mentioned_unit_first "-- it's raw\nSELECT * FROM 'x.csv' JOIN "
    "data/a" "" "a" "-- it's raw\nSELECT * FROM 'x.csv' JOIN \"data/a.csv'" '"' '\'' rfl rfl
    (by simp [isQuote]) (isBase_iff.mpr (by cbv)) (by decide) (by decide) (by decide)
  have hplain := @UnitGraph.mentioned_unit_first "SELECT * FROM " "a" "" "a"
    "SELECT * FROM 'a.csv'" '\'' '\'' rfl rfl
    (by simp [isQuote]) (isBase_iff.mpr (by cbv)) (by decide) (by decide) (by decide)
  have hfound := (discoverWith_of_resolveWith Sample.resolve_files).1
  have hsecond : Sample.second ∈ Sample.pair.discovered.units := by simp [Sample.pair]
  have hfirst : "a" ∈ Sample.pair.discovered.units.map BuildUnit.name := by decide
  obtain ⟨hparents, horders⟩ :=
    hplain.2 Sample.files ⟨"/w"⟩ _ Sample.second hfound hsecond Sample.sourceText_second hfirst
  have horder : Sample.graph.resolveOrder = .ok ["a", "b"] := by cbv
  exact ⟨hstray.1, hparents, _, horder, (horders _ horder).2⟩

end BuildPlan

end QueryBuild

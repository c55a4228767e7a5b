import QueryBuild.Proofs.Files.Directory
/-!
# The sources of a directory

The units of a directory are told by the set of its entries alone: its sources in the order of their
names make one unit each. If some of them have one stem, the first source that repeats a stem is
reported with the source that had it before.
-/

namespace QueryBuild

/-! ### Names in their order -/

namespace FileName

theorem before_iff {a b : FileName} : before a b = true ↔ a ≤ b := by
  induction a generalizing b with
  | nil => simp [before]
  | cons x xs ih =>
    cases b with
    | nil => simp [before]
    | cons y ys =>
      have hrest : before xs ys = true ↔ ¬ ys < xs := ih
      rw [before, Bool.or_eq_true, Bool.and_eq_true, decide_eq_true_eq, beq_iff_eq, hrest,
        ← List.not_lt, List.cons_lt_cons_iff]
      simp only [UInt8.lt_iff_toNat_lt, ← UInt8.toNat_inj]
      by_cases hless : ys < xs
      · simp only [hless, not_true_eq_false, and_false, or_false, and_true]
        omega
      · simp only [hless, not_false_eq_true, and_false, or_false, and_true]
        omega

/-- A name is that of a source with a stem: behind the stem, which is not empty, there are a dot and
the extension of sources, in letters of either case. -/
def IsSourceNamed (name : FileName) (stem : String) : Prop :=
  stem ≠ "" ∧ ∃ extension, extension.map Char.toLower = BuildUnit.sourceExtension ∧
    name = ofText (stem ++ "." ++ extension)

/-- A name is cut at its last dot, if there is something in front of that. -/
theorem splitName_append {α : Type} [BEq α] [LawfulBEq α] {dot : α} {stem extension : List α}
    (hstem : stem ≠ []) (hextension : extension ≠ []) (hdot : dot ∉ extension) :
    Path.splitName dot (stem ++ dot :: extension) = (stem, some extension) := by
  obtain ⟨front, last, rfl⟩ := List.eq_nil_or_concat stem |>.resolve_left hstem
  have hlong : ¬ (front.concat last ++ dot :: extension == [dot, dot]) = true := by
    intro heq
    have hlength := congrArg List.length (beq_iff_eq.mp heq)
    have hpos := List.length_pos_of_ne_nil hextension
    simp only [List.concat_eq_append, List.length_append, List.length_cons, List.length_nil]
      at hlength
    omega
  have hbehind : ∀ x ∈ extension.reverse, (x != dot) = true := by
    intro x hx
    rw [bne_iff_ne]
    intro heq
    exact hdot (heq ▸ List.mem_reverse.mp hx)
  have hcut : (front.concat last ++ dot :: extension).reverse.span (· != dot) =
      (extension.reverse, dot :: last :: front.reverse) := by
    have hreverse : (front.concat last ++ dot :: extension).reverse =
        extension.reverse ++ dot :: last :: front.reverse := by simp
    rw [hreverse, List.span_eq_takeWhile_dropWhile, List.takeWhile_append_of_pos hbehind,
      List.dropWhile_append_of_pos hbehind]
    simp
  rw [Path.splitName, if_neg hlong, hcut]
  simp

theorem extension_of_lower {extension : String}
    (h : extension.map Char.toLower = BuildUnit.sourceExtension) :
    extension ≠ "" ∧ '.' ∉ extension.toList := by
  have hchars : extension.toList.map Char.toLower = ['s', 'q', 'l'] := by
    rw [← String.toList_map, h]
    rfl
  constructor
  · rintro rfl
    simp at hchars
  · intro hmem
    have hmapped := List.mem_map_of_mem (f := Char.toLower) hmem
    rw [hchars] at hmapped
    revert hmapped
    decide

theorem ofText_ne_nil {s : String} (h : s ≠ "") : ofText s ≠ [] := by
  have hempty : ofText "" = [] := by cbv
  rw [← hempty]
  exact mt ofText_inj.mp h

/-- A name is accepted with a stem exactly if it is that of a source with the stem. -/
theorem isSourceNamed_iff {name : FileName} {stem : String} :
    name.IsSourceNamed stem ↔ name.isSource = true ∧ name.split.1.text? = some stem := by
  constructor
  · rintro ⟨hstem, extension, hlower, rfl⟩
    obtain ⟨hnonempty, hplain⟩ := extension_of_lower hlower
    have hdot : '.'.toUInt8 ∉ ofText extension :=
      mt (byteOf_mem_ofText (by decide)).mp hplain
    have hwhole : ofText (stem ++ "." ++ extension) =
        ofText stem ++ '.'.toUInt8 :: ofText extension := by
      have hbyte : ofText "." = ['.'.toUInt8] := by cbv
      rw [ofText_append, ofText_append, hbyte, List.append_assoc, List.singleton_append]
    have hsplit : (ofText (stem ++ "." ++ extension)).split =
        (ofText stem, some (ofText extension)) := by
      rw [hwhole]
      exact splitName_append (ofText_ne_nil hstem) (ofText_ne_nil hnonempty) hdot
    rw [isSource, hsplit]
    dsimp only [Option.bind_some]
    rw [text?_eq_some.mpr rfl]
    exact ⟨beq_iff_eq.mpr hlower, text?_eq_some.mpr rfl⟩
  · rintro ⟨hsource, htext⟩
    obtain ⟨extension, hname, hlower, hstem⟩ := eq_ofText_of_isSource hsource htext
    exact ⟨hstem, extension, hlower, hname⟩

end FileName

/-! ### The entries of a directory -/

namespace FileSystem

variable {fs : FileSystem} {location : Location}

/-- If every location has one entry, the names in a directory are listed in strictly increasing
order. -/
theorem pairwise_listDirectory (h : (fs.entries.map Prod.fst).Nodup) :
    (fs.listDirectory location).Pairwise fun a b => a.1 < b.1 := by
  have hsorted : (fs.listDirectory location).Pairwise fun a b => a.1.before b.1 = true := by
    refine List.pairwise_mergeSort (fun a b c hab hbc => ?_) (fun a b => ?_) _
    · rw [FileName.before_iff] at hab hbc ⊢
      exact List.le_trans hab hbc
    · rw [Bool.or_eq_true, FileName.before_iff, FileName.before_iff]
      exact List.le_total _ _
  have hdistinct : (fs.listDirectory location).Pairwise fun a b => a.1 ≠ b.1 := by
    refine (List.Perm.pairwise_iff (fun hne => hne.symm) (List.mergeSort_perm _ _)).mpr ?_
    rw [List.pairwise_filterMap]
    refine (List.pairwise_map.mp h).imp fun hne a ha b hb heq => hne ?_
    rw [nameIn?_eq_some.mp ha, nameIn?_eq_some.mp hb, heq]
  refine (hsorted.and hdistinct).imp fun hcase => ?_
  by_contra hnot
  exact hcase.2 (List.le_antisymm (FileName.before_iff.mp hcase.1) hnot)

theorem get?_eq_some_iff (h : (fs.entries.map Prod.fst).Nodup) (hlocation : location ≠ [])
    {entry : Entry} : fs.get? location = some entry ↔ (location, entry) ∈ fs.entries := by
  constructor
  · exact mem_entries_of_get? hlocation
  · intro hmem
    obtain ⟨name, rest, rfl⟩ := List.exists_cons_of_ne_nil hlocation
    obtain ⟨front, back, hentries⟩ := List.append_of_mem hmem
    rw [hentries, List.map_append, List.nodup_append] at h
    refine List.lookup_eq_some_iff.mpr ⟨front, back, hentries, fun other hother => ?_⟩
    rw [bne_iff_ne]
    exact (h.2.2 _ (List.mem_map_of_mem hother) _ (by simp)).symm

end FileSystem

namespace UnitGraph

open FileSystem

variable {fs fs' : FileSystem} {location : Location}

theorem pairwise_fileNames (h : (fs.entries.map Prod.fst).Nodup) :
    (fileNames fs location).Pairwise (· < ·) := by
  rw [fileNames, List.pairwise_filterMap]
  refine (pairwise_listDirectory h).imp fun hlt name hname name' hname' => ?_
  simp only [Option.ite_none_right_eq_some, Option.some.injEq] at hname hname'
  rw [← hname.2, ← hname'.2]
  exact hlt

/-- The files of a directory are the same in whatever order the entries are kept. -/
theorem fileNames_perm (h : (fs.entries.map Prod.fst).Nodup)
    (hperm : fs'.entries.Perm fs.entries) : fileNames fs' location = fileNames fs location := by
  have h' : (fs'.entries.map Prod.fst).Nodup := (hperm.map _).nodup_iff.mpr h
  have hsorted : (fileNames fs location).Pairwise (· < ·) := pairwise_fileNames h
  have hsorted' : (fileNames fs' location).Pairwise (· < ·) := pairwise_fileNames h'
  have hne : ∀ {a b : FileName}, a < b → a ≠ b := by
    rintro a _ hlt rfl
    exact List.lt_irrefl a hlt
  have hmem : ∀ name, name ∈ fileNames fs' location ↔ name ∈ fileNames fs location := by
    intro name
    simp only [mem_fileNames, hperm.mem_iff]
  exact List.Perm.eq_of_pairwise (fun a b _ _ hab hba => absurd hba (List.lt_asymm hab))
    hsorted' hsorted ((List.perm_ext_iff_of_nodup (hsorted'.imp hne) (hsorted.imp hne)).mpr hmem)

/-! ### The scan -/

/-- A source with its stem, if a name is that of one. -/
def source? (name : FileName) : Option (FileName × String) :=
  if name.isSource then name.split.1.text?.map fun stem => (name, stem) else none

/-- The unit of a source with its stem. -/
def unitOf (directory : Path) (source : FileName × String) : BuildUnit :=
  BuildUnit.ofSource source.2 (directory.join source.1.shown)

/-- Some sources have different stems up to one that repeats the stem of another one. -/
def FirstClash (sources : List (FileName × String)) (stem : String) (first second : FileName) :
    Prop :=
  ∃ front back, sources = front ++ (second, stem) :: back ∧ (front.map Prod.snd).Nodup ∧
    (first, stem) ∈ front ∧ ∀ other, (other, stem) ∈ front → other = first

/-- What a scan of sources comes to. -/
structure Scanned (directory : Path) (sources : List (FileName × String)) (found : Scan) :
    Prop where
  units : (sources.map Prod.snd).Nodup →
    found.clash = none ∧ found.units = sources.map (unitOf directory)
  clash : ¬ (sources.map Prod.snd).Nodup → ∃ stem first second,
    FirstClash sources stem first second ∧ found.clash =
      some (.duplicateUnit stem (directory.join first.shown) (directory.join second.shown))

theorem source?_eq_some {name : FileName} {source : FileName × String} :
    source? name = some source ↔ source.1 = name ∧ name.IsSourceNamed source.2 := by
  obtain ⟨other, stem⟩ := source
  rw [FileName.isSourceNamed_iff, source?]
  by_cases hsource : name.isSource = true
  · rw [if_pos hsource, Option.map_eq_some_iff]
    constructor
    · rintro ⟨_, htext, ⟨⟩⟩
      exact ⟨rfl, hsource, htext⟩
    · rintro ⟨rfl, -, htext⟩
      exact ⟨stem, htext, rfl⟩
  · simp [hsource]

/-- A scan that goes on behind sources with different stems comes to the same as a scan of all. -/
theorem scanned_scan (directory : Path) {done : List (FileName × String)}
    (hdone : (done.map Prod.snd).Nodup) (names : List FileName) :
    Scanned directory (done ++ names.filterMap source?)
      (scan directory (done.map (unitOf directory)) names) := by
  induction names generalizing done with
  | nil =>
    rw [List.filterMap_nil, List.append_nil]
    exact ⟨fun _ => ⟨rfl, rfl⟩, fun hnot => absurd hdone hnot⟩
  | cons name names ih =>
    rw [scan]
    by_cases hsource : name.isSource = true
    · rw [if_pos hsource]
      cases hstem : name.split.1.text? with
      | none =>
        have hnone : source? name = none := by simp [source?, hstem]
        rw [List.filterMap_cons_none hnone]
        exact ⟨(ih hdone).units, (ih hdone).clash⟩
      | some stem =>
        have hsome : source? name = some (name, stem) := by simp [source?, hsource, hstem]
        rw [List.filterMap_cons_some hsome]
        dsimp only
        cases hfind : (done.map (unitOf directory)).find? fun u => u.name == stem with
        | none =>
          have hnew : (((done ++ [(name, stem)])).map Prod.snd).Nodup := by
            rw [List.map_append, List.map_singleton, ← List.concat_eq_append, List.nodup_concat]
            refine ⟨fun hmem => ?_, hdone⟩
            obtain ⟨source, hmem, hsame⟩ := List.mem_map.mp hmem
            exact List.find?_eq_none.mp hfind _ (List.mem_map_of_mem hmem) (beq_iff_eq.mpr hsame)
          have hnext := ih hnew
          rw [List.map_append, List.append_assoc] at hnext
          exact hnext
        | some known =>
          obtain ⟨⟨first, firstStem⟩, hmem, rfl⟩ :=
            List.mem_map.mp (List.mem_of_find?_eq_some hfind)
          have hfound := List.find?_some hfind
          have hsame : firstStem = stem := beq_iff_eq.mp hfound
          subst hsame
          refine ⟨fun hnodup => ?_, fun _ => ⟨firstStem, first, name, ?_, rfl⟩⟩
          · rw [List.map_append, List.map_cons, List.nodup_append] at hnodup
            exact absurd rfl (hnodup.2.2 _ (List.mem_map_of_mem hmem) _ List.mem_cons_self)
          · refine ⟨done, _, rfl, hdone, hmem, fun other hother => ?_⟩
            exact congrArg Prod.fst (List.inj_on_of_nodup_map hdone hother hmem rfl)
    · rw [if_neg hsource]
      have hnone : source? name = none := by simp [source?, hsource]
      rw [List.filterMap_cons_none hnone]
      exact ih hdone

/-- The sources of a directory: the regular files, links not followed, that have the name of a
source, in strictly increasing order of the bytes of their names. -/
structure SourcesOf (fs : FileSystem) (location : Location) (sources : List (FileName × String)) :
    Prop where
  sorted : (sources.map Prod.fst).Pairwise (· < ·)
  mem_iff : ∀ name stem, (name, stem) ∈ sources ↔
    (∃ entry, fs.get? (location ++ [name]) = some entry ∧ entry.isFile = true) ∧
      name.IsSourceNamed stem

theorem sourcesOf_fileNames (h : (fs.entries.map Prod.fst).Nodup) :
    SourcesOf fs location ((fileNames fs location).filterMap source?) where
  sorted := by
    rw [List.map_filterMap, List.pairwise_filterMap]
    refine (pairwise_fileNames h).imp fun hlt name hname name' hname' => ?_
    obtain ⟨source, hsource, rfl⟩ := Option.map_eq_some_iff.mp hname
    obtain ⟨source', hsource', rfl⟩ := Option.map_eq_some_iff.mp hname'
    rw [(source?_eq_some.mp hsource).1, (source?_eq_some.mp hsource').1]
    exact hlt
  mem_iff name stem := by
    have hget : ∀ entry, fs.get? (location ++ [name]) = some entry ↔
        (location ++ [name], entry) ∈ fs.entries :=
      fun entry => get?_eq_some_iff h (by simp)
    simp only [List.mem_filterMap, source?_eq_some, mem_fileNames, hget]
    constructor
    · rintro ⟨found, hfile, rfl, hnamed⟩
      exact ⟨hfile, hnamed⟩
    · rintro ⟨hfile, hnamed⟩
      exact ⟨name, hfile, rfl, hnamed⟩

/-- The order in which the entries of a directory are kept makes no difference to a scan of it. Its
sources in the order of their names make one unit each, with the stem as its name, if the stems are
all different. Otherwise the first source that repeats a stem is reported with the one source in
front of it that has this stem. -/
theorem scan_of_sources (h : (fs.entries.map Prod.fst).Nodup) (directory : Path)
    (location : Location) :
    let found := scan directory [] (fileNames fs location)
    (∀ fs', fs'.entries.Perm fs.entries →
      scan directory [] (fileNames fs' location) = found) ∧
    ∃ sources, SourcesOf fs location sources ∧ Scanned directory sources found := by
  have hscanned : Scanned directory ((fileNames fs location).filterMap source?)
      (scan directory [] (fileNames fs location)) :=
    @scanned_scan directory [] List.nodup_nil (fileNames fs location)
  refine ⟨fun fs' hperm => ?_, _, sourcesOf_fileNames h, hscanned⟩
  rw [fileNames_perm h hperm]

namespace Sample

/-- Two sources differ in the case of their extensions; a name without a stem, a link and a
directory are no sources. -/
def mixed : FileSystem where
  entries := [
    ([FileName.ofText "w"], .directory 0),
    ([FileName.ofText "w", FileName.ofText "b.sql"], .file .empty 1 false),
    ([FileName.ofText "w", FileName.ofText "a.sql"], .file .empty 1 false),
    ([FileName.ofText "w", FileName.ofText ".sql"], .file .empty 1 false),
    ([FileName.ofText "w", FileName.ofText "a.SQL"], .file .empty 1 false),
    ([FileName.ofText "w", FileName.ofText "c.sql"], .link "a.sql"),
    ([FileName.ofText "w", FileName.ofText "d.sql"], .directory 0)]
  workingDirectory := []
  now := 2

def reversed : FileSystem :=
  { mixed with entries := mixed.entries.reverse }

end Sample

/-- Listed in either order, the source with the small letters repeats the stem of the other one. -/
theorem case_variants_clash :
    scan ⟨"/w"⟩ [] (fileNames Sample.reversed [FileName.ofText "w"]) =
      scan ⟨"/w"⟩ [] (fileNames Sample.mixed [FileName.ofText "w"]) ∧
    (scan ⟨"/w"⟩ [] (fileNames Sample.mixed [FileName.ofText "w"])).clash =
      some (.duplicateUnit "a" ⟨"/w/a.SQL"⟩ ⟨"/w/a.sql"⟩) ∧
    ∃ sources first second, SourcesOf Sample.mixed [FileName.ofText "w"] sources ∧
      FirstClash sources "a" first second := by
  have hdistinct : (Sample.mixed.entries.map Prod.fst).Nodup := by
    simp [Sample.mixed, FileName.ofText_inj]
  obtain ⟨hsame, sources, hsources, hscanned⟩ :=
    scan_of_sources hdistinct ⟨"/w"⟩ [FileName.ofText "w"]
  have hclash : (scan ⟨"/w"⟩ [] (fileNames Sample.mixed [FileName.ofText "w"])).clash =
      some (.duplicateUnit "a" ⟨"/w/a.SQL"⟩ ⟨"/w/a.sql"⟩) := by cbv
  have hrepeated : ¬ (sources.map Prod.snd).Nodup := by
    intro hnodup
    rw [(hscanned.units hnodup).1] at hclash
    cases hclash
  obtain ⟨stem, first, second, hfirst, hreport⟩ := hscanned.clash hrepeated
  rw [hclash, Option.some.injEq, GraphError.duplicateUnit.injEq] at hreport
  obtain ⟨rfl, -, -⟩ := hreport
  exact ⟨hsame Sample.reversed (List.reverse_perm _), hclash, sources, first, second, hsources,
    hfirst⟩

end UnitGraph

end QueryBuild

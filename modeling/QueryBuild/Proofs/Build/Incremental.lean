import QueryBuild.Proofs.Build.Kept
import QueryBuild.Proofs.Build.Recompile
/-!
# Incremental builds

A compilation leaves the artifacts alone that are newer than their sources. Those were made from the
texts that the sources have now, so it leads to what a compilation of everything leads to, whatever
was edited, removed and compiled before. No path leads elsewhere meanwhile, so what could be written
once can be written later, and a compilation succeeds as soon as the texts are queries.
-/

namespace QueryBuild.BuildPlan

open FileSystem

section

variable {names : List String} {base : Location} {make : String → ByteArray} {plan : BuildPlan}
  {start fs : FileSystem}

/-- Editing, removing and compiling lead no path to another place. -/
theorem shape_of_evolves (hlaid : plan.LaidOut names) (hsep : plan.Separate)
    (hnodup : plan.order.Nodup) (hstart : Kept names base make plan start)
    (hevolves : plan.Evolves make start fs) : SameShape start fs := by
  induction hevolves with
  | start => exact SameShape.refl start
  | wait before later ih => exact ih.trans ⟨rfl, fun _ => rfl⟩
  | edit before known written ih => exact ih.trans (write_spec written).1.shape
  | @remove fs fs' before u known removed ih =>
    have hkept := kept_of_evolves hlaid hsep hnodup hstart before
    exact ih.trans (hkept.removed hlaid known removed).1.shape
  | compile before help force compiles ih =>
    exact ih.trans (phase_shape compiles.confined force plan.order _)

/-- Whatever was edited, removed and compiled before, a compilation succeeds if the texts are
queries by now and nothing kept the units from being compiled at the start. -/
theorem compiles_of_evolves (hlaid : plan.LaidOut names) (hsep : plan.Separate)
    (hnodup : plan.order.Nodup) (hstart : Kept names base make plan start)
    (hevolves : plan.Evolves make start fs) {help : Collaborators}
    (hconfined : help.toolchain.Confined) (hable : help.toolchain.Able) (force : Bool)
    (hready : ∀ u ∈ plan.order, u.Ready help.validator start)
    (hvalid : ∀ u ∈ plan.order, ∃ sql, u.sourceText fs = .ok sql ∧ help.validator sql = .ok ()) :
    ∃ records, (plan.compile help force fs).outcome = .ok records := by
  have hshape := shape_of_evolves hlaid hsep hnodup hstart hevolves
  refine phase_ready hlaid hsep hconfined hable force (List.Subset.refl _) hnodup
    (hstart.flat.of_sameShape hshape) fun u hu => ?_
  exact ⟨hvalid u hu, (hready u hu).program.of_sameShape hshape,
    (hready u hu).artifact.of_sameShape hshape⟩

/-- Whatever was edited, removed and compiled before, a compilation that succeeds leads to the
artifacts that belong to the sources as they are, which are those that a compilation of everything
leads to. -/
theorem incremental_as_clean {extract : Extractor} {found start : FileSystem} {path : Path}
    {help : Collaborators} {force : Bool} {records : List UnitRecord}
    (hplan : (resolveWith extract found path).2 = .ok plan) (hfound : found.WellKept)
    (hsep : plan.Separate) (hflat : ∃ base, start.FlatAt plan.directory base)
    (hstart : start.WellKept) (hvacant : ∀ u ∈ plan.order, start.Vacant u.artifact)
    (hevolves : plan.Evolves make start fs) (hcompiles : help.toolchain.Compiles make)
    (hok : (plan.compile help force fs).outcome = .ok records) :
    ∀ u ∈ plan.order, ∃ text, u.sourceText fs = .ok text ∧
      u.sourceText (plan.compile help force fs).files = .ok text ∧
      (plan.compile help force fs).files.read u.artifact =
        .ok (make (Program.render u text).source) ∧
      ∀ clean records', clean.toolchain.Compiles make →
        (plan.compile clean true fs).outcome = .ok records' →
        (plan.compile clean true fs).files.read u.artifact =
          (plan.compile help force fs).files.read u.artifact := by
  obtain ⟨names, hlaid⟩ := laidOut_of_resolveWith hplan hfound hsep.named
  obtain ⟨base, hflat⟩ := hflat
  rw [hlaid.directory] at hflat
  have hnodup : plan.order.Nodup := (resolved_of_resolveWith hplan).nodup.of_map
  have hkept : Kept names base make plan fs :=
    kept_of_evolves hlaid hsep hnodup (kept_of_vacant hlaid hflat hstart hvacant) hevolves
  -- what one compilation makes, in terms of the sources before it
  have hmakes : ∀ (other : Collaborators) (all : Bool) (done : List UnitRecord),
      other.toolchain.Compiles make → (plan.compile other all fs).outcome = .ok done →
      ∀ u ∈ plan.order, ∃ text, u.sourceText fs = .ok text ∧
        u.sourceText (plan.compile other all fs).files = .ok text ∧
        (plan.compile other all fs).files.read u.artifact =
          .ok (make (Program.render u text).source) := by
    intro other all done hother hdone u hu
    obtain ⟨-, hsources, -, hmade⟩ :=
      hkept.compileUnits hlaid hsep hother all (List.Subset.refl _) hnodup
    obtain ⟨text, htext, hread⟩ := hmade done hdone u hu
    exact ⟨text, ((hsources u hu).readText text).mp htext, htext, hread⟩
  intro u hu
  obtain ⟨text, htext, htext', hread⟩ := hmakes help force records hcompiles hok u hu
  refine ⟨text, htext, htext', hread, ?_⟩
  intro clean records' hclean hdone
  obtain ⟨other, hother, -, hread'⟩ := hmakes clean true records' hclean hdone u hu
  cases htext.symm.trans hother
  rw [hread, hread']

/-! ### Three units, edited and removed -/

namespace Sample

theorem vacant_sources {u : BuildUnit} (hu : u ∈ triple.order) : sources.Vacant u.artifact := by
  have hmade : u.artifact ∈ [u.program, u.artifact] := by simp
  obtain ⟨name, hname, hpath⟩ := mem_made hu hmade
  intro follow found hfound
  rw [hpath, resolve_made hname] at hfound
  cases hfound
  rfl

theorem kept_sources : Kept ["w"] [FileName.ofText "w"] String.toUTF8 triple sources :=
  kept_of_vacant laidOut_triple flatAt_sources wellKept_sources fun _ hu => vacant_sources hu

theorem compiles_idle : idle.toolchain.Compiles String.toUTF8 where
  success program artifact fs ended hended _ := by cases hended
  failure program artifact fs _ := ⟨fs.now, Int.le_refl _, rfl⟩

/-- All units are compiled. -/
def once : FileSystem :=
  (triple.compile waiting false sources).files

theorem evolves_once : triple.Evolves String.toUTF8 sources once :=
  .compile .start waiting false compiles_waiting

theorem nodup_triple : triple.order.Nodup := by decide

theorem compile_once : ∃ records, (triple.compile waiting false sources).outcome = .ok records :=
  phase_ready laidOut_triple separate_triple compiles_waiting.confined able_waiting false
    (List.Subset.refl _) nodup_triple flatAt_sources fun _ hu => ready_sources hu

theorem kept_once : Kept ["w"] [FileName.ofText "w"] String.toUTF8 triple once :=
  kept_of_evolves laidOut_triple separate_triple nodup_triple kept_sources evolves_once

theorem upToDate_once {u : BuildUnit} (hu : u ∈ triple.order) :
    Staleness.ofUnit once u = .ok .upToDate := by
  obtain ⟨records, hok⟩ := compile_once
  exact (upToDate_phase laidOut_triple separate_triple
    (fun _ hv => refreshes_waiting (modified_sources hv)) (List.Subset.refl _) nodup_triple
    flatAt_sources (fun _ _ => SameView.refl _ _) hok).1 u hu

/-- The texts of the sources behind the edit. -/
def texts : List (BuildUnit × String) :=
  [(first, "SELECT 3"), (second, "SELECT * FROM 'a.csv'"), (third, "SELECT 2")]

/-- Later the text of the first unit is edited and the artifact of the second one is removed. -/
structure Changed (edited removed : FileSystem) : Prop where
  edit : (once.setClock (once.now + 1)).writeText first.source "SELECT 3" = .ok edited
  remove : edited.remove second.artifact = .ok removed

theorem shape_once : SameShape sources once :=
  shape_of_evolves laidOut_triple separate_triple nodup_triple kept_sources evolves_once

theorem mem_made_second : "b" ∈ made := by decide

theorem later_once : once.now ≤ once.now + 1 :=
  Int.le_add_of_nonneg_right (by decide)

theorem isEntry_source {u : BuildUnit} (hu : u ∈ triple.order) : u.source.IsEntry ["w"] :=
  (laidOut_triple.units u hu).source_isEntry

theorem isEntry_artifact {u : BuildUnit} (hu : u ∈ triple.order) : u.artifact.IsEntry ["w"] :=
  (laidOut_triple.units u hu).artifact_isEntry

section

variable {edited : FileSystem}
  (h : (once.setClock (once.now + 1)).writeText first.source "SELECT 3" = .ok edited)

include h

/-- The edit touches the first source, with the time of the clock. -/
theorem touched_edited :
    TouchedOnly [FileName.ofText "w"] [first.source] once edited ∧ ∃ executable,
      edited.find first.source = .ok (first.source.locationIn [FileName.ofText "w"],
        .file "SELECT 3".toUTF8 (once.now + 1) executable) := by
  have hclock : TouchedOnly [FileName.ofText "w"] [first.source] once
      (once.setClock (once.now + 1)) := touchedOnly_setClock later_once
  obtain ⟨hwrite, hfind⟩ := (kept_once.flat.of_sameShape hclock.shape).write
    laidOut_triple.ordinary (isEntry_source (by decide)) h
  exact ⟨hclock.trans hwrite, hfind⟩

theorem evolves_edited : triple.Evolves String.toUTF8 sources edited :=
  .edit (.wait evolves_once later_once) (by decide) h

theorem kept_edited : Kept ["w"] [FileName.ofText "w"] String.toUTF8 triple edited :=
  kept_of_evolves laidOut_triple separate_triple nodup_triple kept_sources (evolves_edited h)

end

namespace Changed

variable {edited removed : FileSystem}

theorem evolves (h : Changed edited removed) : triple.Evolves String.toUTF8 sources removed :=
  .remove (evolves_edited h.edit) (u := second) (by decide) h.remove

theorem kept (h : Changed edited removed) :
    Kept ["w"] [FileName.ofText "w"] String.toUTF8 triple removed :=
  kept_of_evolves laidOut_triple separate_triple nodup_triple kept_sources h.evolves

theorem touched (h : Changed edited removed) :
    TouchedOnly [FileName.ofText "w"] [first.source, second.artifact] once removed ∧
      ∀ found, removed.find second.artifact ≠ .ok found := by
  obtain ⟨hremove, hgone⟩ :=
    (kept_edited h.edit).removed (u := second) laidOut_triple (by decide) h.remove
  exact ⟨((touched_edited h.edit).1.mono (by simp)).trans (hremove.mono (by simp)), hgone⟩

theorem sameAt (h : Changed edited removed) {path : Path} (hpath : path.IsEntry ["w"])
    (hnot : path ∉ [first.source, second.artifact]) : SameAt once removed path := by
  have hfirst : first.source.IsEntry ["w"] := isEntry_source (by decide)
  have hsecond : second.artifact.IsEntry ["w"] := isEntry_artifact (by decide)
  have hpaths : ∀ path ∈ [first.source, second.artifact], path.IsEntry ["w"] := by
    simpa using ⟨hfirst, hsecond⟩
  exact h.touched.1.sameAt kept_once.flat laidOut_triple.ordinary hpaths hpath hnot

theorem find_source (h : Changed edited removed) : ∃ executable,
    removed.find first.source = .ok (first.source.locationIn [FileName.ofText "w"],
      .file "SELECT 3".toUTF8 (once.now + 1) executable) := by
  have hkept := kept_edited h.edit
  have hremove := (hkept.removed (u := second) laidOut_triple (by decide) h.remove).1
  have hsame := hremove.sameAt hkept.flat laidOut_triple.ordinary
    (by simpa using isEntry_artifact (u := second) (by decide))
    (isEntry_source (u := first) (by decide)) (by decide)
  obtain ⟨-, executable, hfind⟩ := touched_edited h.edit
  exact ⟨executable, (hsame _).mpr hfind⟩

end Changed

theorem exists_changed : ∃ edited removed, Changed edited removed := by
  have hopen : (once.setClock (once.now + 1)).Open first.source :=
    (open_of_file (by decide) find_sources.1).of_sameShape
      (shape_once.trans ⟨rfl, fun _ => rfl⟩)
  obtain ⟨edited, hedit⟩ := hopen.write "SELECT 3".toUTF8
  -- the artifact is still there
  obtain ⟨built, -, hbuilt, -, -⟩ := newer_of_not_needsRebuild (upToDate_once (u := second)
    (by decide)) rfl
  have hsame : SameAt once edited second.artifact :=
    (touched_edited hedit).1.sameAt kept_once.flat laidOut_triple.ordinary
      (by simpa using isEntry_source (u := first) (by decide)) (isEntry_artifact (by decide))
      (by decide)
  obtain ⟨found, hfound, -⟩ := modified_eq_ok.mp ((hsame.modified built).mpr hbuilt)
  have hshape : SameShape sources edited := shape_once.trans (touched_edited hedit).1.shape
  have hresolve : ∀ follow, edited.resolve follow second.artifact = .ok
      ⟨[FileName.ofText "w", FileName.ofText "b"],
        edited.get? [FileName.ofText "w", FileName.ofText "b"]⟩ :=
    fun follow => resolve_of_sameShape hshape (resolve_made mem_made_second follow)
  have hsome := find_eq_ok.mp hfound
  rw [hresolve] at hsome
  obtain ⟨hlocation, hentry⟩ := Target.mk.inj (Except.ok.inj hsome)
  have hfalse := hresolve false
  rw [hentry] at hfalse
  exact ⟨edited, _, hedit, remove_found hfalse⟩

namespace Changed

variable {edited removed : FileSystem}

/-- The edited unit is older than its source, the next one has no artifact, and the last one is up
to date. -/
theorem staleness (h : Changed edited removed) :
    Staleness.ofUnit removed first = .ok .outOfDate ∧
    Staleness.ofUnit removed second = .ok .missing ∧
    Staleness.ofUnit removed third = .ok .upToDate := by
  have hfirst : first ∈ triple.order := by decide
  have hthird : third ∈ triple.order := by decide
  refine ⟨?_, ?_, ?_⟩
  · obtain ⟨built, -, hbuilt, -, -⟩ := newer_of_not_needsRebuild (upToDate_once hfirst) rfl
    have hpast := (kept_once.sound first hfirst built hbuilt).1
    have hbuilt' := ((h.sameAt (isEntry_artifact hfirst) (by decide)).modified built).mpr hbuilt
    obtain ⟨executable, hfind⟩ := h.find_source
    have hedited : removed.modified first.source = .ok (once.now + 1) :=
      modified_eq_ok.mpr ⟨_, hfind, rfl⟩
    have hnot : ¬ once.now + 1 < built := fun hnewer =>
      Int.not_lt.mpr (Int.le_trans hpast later_once) hnewer
    simp only [Staleness.ofUnit, Staleness.check, hbuilt', hedited, Except.map, Staleness.compare,
      if_neg hnot]
  · obtain ⟨htouched, hgone⟩ := h.touched
    have hresolve := resolve_of_sameShape (shape_once.trans htouched.shape)
      (resolve_made mem_made_second true)
    cases hentry : removed.get? [FileName.ofText "w", FileName.ofText "b"] with
    | none =>
      rw [hentry] at hresolve
      exact BuildUnit.missing_of_modified (modified_missing hresolve)
    | some entry =>
      rw [hentry] at hresolve
      exact absurd (find_eq_ok.mpr hresolve) (hgone (_, entry))
  · obtain ⟨built, edited', hbuilt, hedited, hnewer⟩ :=
      newer_of_not_needsRebuild (upToDate_once hthird) rfl
    exact BuildUnit.upToDate_of_newer
      (((h.sameAt (isEntry_source hthird) (by decide)).modified edited').mpr hedited)
      (((h.sameAt (isEntry_artifact hthird) (by decide)).modified built).mpr hbuilt) hnewer

/-- Without a compiler the edited unit cannot be compiled. -/
theorem compile_fails (h : Changed edited removed) :
    ∃ f, (triple.compile idle false removed).outcome = .error f := by
  cases hdone : (triple.compile idle false removed).outcome with
  | error f => exact ⟨f, rfl⟩
  | ok records =>
    exfalso
    have hphase : (triple.phase .compile (BuildUnit.compile idle false)
        ([] ++ first :: [second, third]) removed).outcome = .ok records := hdone
    obtain ⟨-, record, -, -, hrecord, -⟩ := phase_split_ok hphase
    rcases BuildUnit.compile_ok hrecord with ⟨-, hfresh, -⟩ | ⟨-, written, -, -, hsuccess, -⟩
    · cases h.staleness.1.symm.trans hfresh
    · obtain ⟨ended, hended, -⟩ := hsuccess
      cases hended

/-- The files that the failed compilation leaves. -/
theorem evolves_failed (h : Changed edited removed) :
    triple.Evolves String.toUTF8 sources (triple.compile idle false removed).files :=
  .compile h.evolves idle false compiles_idle

/-- The sources have these texts after the failed compilation. -/
theorem sourceText (h : Changed edited removed) {u : BuildUnit} {text : String}
    (hknown : (u, text) ∈ texts) :
    u ∈ triple.order ∧
      u.sourceText (triple.compile idle false removed).files = .ok text := by
  have hu : u ∈ triple.order := List.mem_map_of_mem (f := Prod.fst) hknown
  have hsame := (h.kept.compileUnits laidOut_triple separate_triple compiles_idle false
    (List.Subset.refl _) nodup_triple).2.1 u hu
  refine ⟨hu, (hsame.readText text).mpr ?_⟩
  have hfirst := (kept_sources.compileUnits laidOut_triple separate_triple compiles_waiting false
    (List.Subset.refl _) nodup_triple).2.1 u hu
  have hlater : u.source ∉ [first.source, second.artifact] →
      sources.readText u.source = .ok text → removed.readText u.source = .ok text :=
    fun hnot hread => ((h.sameAt (isEntry_source hu) hnot).readText text).mpr
      ((hfirst.readText text).mpr hread)
  simp only [texts, List.mem_cons, Prod.mk.injEq, List.not_mem_nil, or_false] at hknown
  rcases hknown with ⟨rfl, rfl⟩ | ⟨rfl, rfl⟩ | ⟨rfl, rfl⟩
  · obtain ⟨executable, hfind⟩ := h.find_source
    exact readText_of_find hfind
  · exact hlater (by decide) (readText_of_find find_sources.2.1)
  · exact hlater (by decide) (readText_of_find find_sources.2.2)

/-- The next compilation succeeds. -/
theorem compile_succeeds (h : Changed edited removed) (force : Bool) :
    ∃ records, (triple.compile waiting force
      (triple.compile idle false removed).files).outcome = .ok records := by
  refine compiles_of_evolves laidOut_triple separate_triple nodup_triple kept_sources
    h.evolves_failed compiles_waiting.confined able_waiting force
    (fun _ hu => ready_sources hu) fun u hu => ?_
  have hu' : u ∈ texts.map Prod.fst := hu
  obtain ⟨⟨v, text⟩, hknown, rfl⟩ := List.mem_map.mp hu'
  exact ⟨text, (h.sourceText hknown).2, rfl⟩

end Changed

end Sample

/-- Three units are compiled, the first one is edited, the artifact of the second one is removed,
and a compilation fails. The next one leads to what a compilation of everything leads to. -/
theorem rebuilt_as_clean :
    ∃ edited removed, Sample.Changed edited removed ∧
      Staleness.ofUnit removed Sample.first = .ok .outOfDate ∧
      Staleness.ofUnit removed Sample.second = .ok .missing ∧
      Staleness.ofUnit removed Sample.third = .ok .upToDate ∧
      (∃ f, (Sample.triple.compile Sample.idle false removed).outcome = .error f) ∧
      let fs := (Sample.triple.compile Sample.idle false removed).files
      let last := Sample.triple.compile Sample.waiting false fs
      let clean := Sample.triple.compile Sample.waiting true fs
      (∃ records, last.outcome = .ok records) ∧ (∃ records, clean.outcome = .ok records) ∧
      ∀ u text, (u, text) ∈ [(Sample.first, "SELECT 3"),
          (Sample.second, "SELECT * FROM 'a.csv'"), (Sample.third, "SELECT 2")] →
        last.files.read u.artifact = .ok (Program.render u text).source.toUTF8 ∧
        clean.files.read u.artifact = last.files.read u.artifact := by
  obtain ⟨edited, removed, h⟩ := Sample.exists_changed
  obtain ⟨records, hok⟩ := h.compile_succeeds false
  obtain ⟨records', hclean⟩ := h.compile_succeeds true
  obtain ⟨hfirst, hsecond, hthird⟩ := h.staleness
  refine ⟨edited, removed, h, hfirst, hsecond, hthird, h.compile_fails, ⟨records, hok⟩,
    ⟨records', hclean⟩, ?_⟩
  intro u text hknown
  obtain ⟨hu, htext⟩ := h.sourceText hknown
  obtain ⟨text', htext', -, hread, hsame⟩ := incremental_as_clean Sample.resolve_sources
    Sample.wellKept_sources Sample.separate_triple Sample.flatAt_triple Sample.wellKept_sources
    (fun _ hv => Sample.vacant_sources hv) h.evolves_failed Sample.compiles_waiting hok u hu
  cases htext.symm.trans htext'
  exact ⟨hread, hsame Sample.waiting records' Sample.compiles_waiting hclean⟩

end

end QueryBuild.BuildPlan

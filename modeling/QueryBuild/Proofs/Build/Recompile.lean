import QueryBuild.Proofs.Build.Pointwise
/-!
# Compiling once more

After a compile phase that succeeded, every artifact is newer than its source: those that were
compiled, as the compiler saw to it, and the others, as they were not compiled. No later unit of the
phase changes that. So a second phase finds nothing to do.
-/

namespace QueryBuild

open FileSystem

/-- A compiler that, if it succeeds, writes the artifact of a unit and nothing else, with a time
later than that of the source. It is only asked for while the source is as it is in some files. -/
structure Toolchain.Refreshes (toolchain : Toolchain) (fs : FileSystem) (u : BuildUnit) : Prop where
  only : ∀ now, SameView fs now u.source → toolchain.Succeeds u.program u.artifact now →
    WritesOnly u.artifact now (toolchain u.program u.artifact now).files
  newer : ∀ now, SameView fs now u.source → toolchain.Succeeds u.program u.artifact now →
    ∀ edited, now.modified u.source = .ok edited →
    ∃ built, (toolchain u.program u.artifact now).files.modified u.artifact = .ok built ∧
      edited < built

/-- A compiler that succeeds leaves a file that is not older than the call. -/
theorem Toolchain.Compiles.find {make : String → ByteArray} {toolchain : Toolchain}
    (h : toolchain.Compiles make) {program artifact : Path} {fs : FileSystem}
    (hsuccess : toolchain.Succeeds program artifact fs) :
    ∃ location contents built executable, (toolchain program artifact fs).files.find artifact =
      .ok (location, .file contents built executable) ∧ fs.now ≤ built := by
  obtain ⟨ended, hended, hwell⟩ := hsuccess
  obtain ⟨text, time, written, executable, -, hlater, hw, hs⟩ :=
    h.success program artifact fs ended hended hwell
  obtain ⟨-, location, before, hfind⟩ := write_spec hw
  exact ⟨location, make text, time, executable, (setExecutable_spec hs).2 location _ _ _ hfind,
    hlater⟩

/-- A compiler that is not called before some moment. -/
def Toolchain.notBefore (moment : Instant) (toolchain : Toolchain) : Toolchain :=
  fun program artifact fs => toolchain program artifact (fs.setClock (max fs.now moment))

theorem readText_setClock {fs : FileSystem} {path : Path} {text : String}
    (h : fs.readText path = .ok text) (time : Instant) :
    (fs.setClock time).readText path = .ok text := by
  obtain ⟨location, modified, executable, hfind⟩ := read_eq_ok.mp (readText_eq_ok.mp h)
  have hshape : SameShape fs (fs.setClock time) := ⟨rfl, fun _ => rfl⟩
  exact readText_of_find (find_of_sameShape hshape hfind rfl)

theorem Toolchain.Able.notBefore {toolchain : Toolchain} (h : toolchain.Able) (moment : Instant) :
    (toolchain.notBefore moment).Able := by
  intro program artifact fs text hread hopen
  exact h program artifact _ text (readText_setClock hread _)
    (hopen.of_sameShape ⟨rfl, fun _ => rfl⟩)

theorem Toolchain.Compiles.notBefore {make : String → ByteArray} {toolchain : Toolchain}
    (h : toolchain.Compiles make) (moment : Instant) :
    (toolchain.notBefore moment).Compiles make where
  success program artifact fs ended hended hwell := by
    obtain ⟨text, time, written, executable, hread, hlater, hw, hs⟩ :=
      h.success program artifact _ ended hended hwell
    exact ⟨text, time, written, executable, readText_setClock hread fs.now,
      Int.le_trans (Int.le_max_left _ _) hlater, hw, hs⟩
  failure program artifact fs hfailed := by
    obtain ⟨time, hlater, hfiles⟩ := h.failure program artifact _ hfailed
    exact ⟨time, Int.le_trans (Int.le_max_left _ _) hlater, hfiles⟩

/-- A compiler refreshes an artifact if it is called later than the source was edited. -/
theorem Toolchain.Compiles.refreshes {make : String → ByteArray} {toolchain : Toolchain}
    (h : toolchain.Compiles make) {moment : Instant} {fs : FileSystem} {u : BuildUnit}
    (hmoment : ∀ edited, fs.modified u.source = .ok edited → edited < moment) :
    (toolchain.notBefore moment).Refreshes fs u where
  only now _ _ := (writesOnly_setClock u.artifact now _).trans (h.writesOnly _ _ _)
  newer now hsame hsuccess edited hedited := by
    obtain ⟨location, contents, built, executable, hfind, hlater⟩ := h.find hsuccess
    refine ⟨built, modified_eq_ok.mpr ⟨_, hfind, rfl⟩, ?_⟩
    calc edited < moment := hmoment edited (hsame.modified.symm.trans hedited)
      _ ≤ max now.now moment := Int.le_max_right _ _
      _ ≤ built := hlater

namespace BuildUnit

variable {names : List String} {base : Location} {help : Collaborators} {force : Bool}
  {fs now : FileSystem} {u : BuildUnit}

/-- To compile a unit with success finds the artifact up to date, or writes the program and calls
the compiler with success. -/
theorem compile_ok {record : UnitRecord} (h : (u.compile help force now).result = .ok record) :
    (force = false ∧ Staleness.ofUnit now u = .ok .upToDate ∧
      (u.compile help force now).files = now) ∨
    ∃ sql written, u.sourceText now = .ok sql ∧
      now.writeText u.program (Program.render u sql).source = .ok written ∧
      help.toolchain.Succeeds u.program u.artifact written ∧
      (u.compile help force now).files = (help.toolchain u.program u.artifact written).files := by
  rw [compile] at h ⊢
  cases hstale : Staleness.ofUnit now u with
  | error e =>
    rw [hstale] at h
    cases h
  | ok staleness =>
    simp only [hstale] at h ⊢
    split at h
    · rename_i hkeep
      left
      rw [if_pos hkeep]
      simp only [Bool.and_eq_true, Bool.not_eq_true'] at hkeep
      cases staleness with
      | upToDate => exact ⟨hkeep.1, rfl, rfl⟩
      | missing => cases hkeep.2
      | outOfDate => cases hkeep.2
    · rename_i hbuild
      right
      rw [if_neg hbuild]
      obtain ⟨_, hdone, -⟩ := ok_of_map h
      rcases build_cases help u now with
        ⟨e, events, -, hfailed⟩ | ⟨sql, written, hread, -, hwrite, hcalled⟩
      · rw [hfailed] at hdone
        cases hdone
      · rw [hcalled] at hdone ⊢
        exact ⟨sql, written, hread, hwrite, success_of_judge hdone, rfl⟩

/-- A call of the compiler that succeeds makes the artifact newer than the source. -/
theorem LiesIn.call_fresh (h : u.LiesIn names) (hnames : ∀ n ∈ names, IsOrdinary n)
    (hflat : now.FlatAt (Path.rooted names) base) (hrefreshes : help.toolchain.Refreshes fs u)
    (hsame : SameView fs now u.source) {sql source : String} (hread : u.sourceText now = .ok sql)
    {written : FileSystem} (hwrite : now.writeText u.program source = .ok written)
    (hsuccess : help.toolchain.Succeeds u.program u.artifact written) :
    let files := (help.toolchain u.program u.artifact written).files
    ChangedWithin base [u.program, u.artifact] now files ∧
      Staleness.ofUnit files u = .ok .upToDate := by
  obtain ⟨hprogram, -⟩ := hflat.write hnames h.program_isEntry hwrite
  have hflat' := hflat.of_sameShape hprogram.shape
  -- the program is no source, and the artifact is none either
  have hsource : SameView now written u.source :=
    hprogram.changedWithin.sameView hflat hnames (by simpa using h.program_isEntry)
      h.source_isEntry (by simpa using (h.program_ne_source hnames).symm)
  have hartifact := (hrefreshes.only written (hsame.trans hsource) hsuccess).changedWithin hflat'
    hnames h.artifact_isEntry
  have hsource' := hartifact.sameView hflat' hnames (by simpa using h.artifact_isEntry)
    h.source_isEntry (by simpa using h.source_ne_artifact hnames)
  obtain ⟨location, edited, executable, hfind⟩ := read_eq_ok.mp (readText_eq_ok.mp hread)
  have hedited : written.modified u.source = .ok edited :=
    hsource.modified.trans (modified_eq_ok.mpr ⟨_, hfind, rfl⟩)
  obtain ⟨built, hbuilt, hnewer⟩ :=
    hrefreshes.newer written (hsame.trans hsource) hsuccess edited hedited
  exact ⟨(hprogram.changedWithin.mono (by simp)).trans (hartifact.mono (by simp)),
    upToDate_of_newer (hsource'.modified.trans hedited) hbuilt hnewer⟩

/-- To compile a unit with success leaves the artifact newer than the source. -/
theorem LiesIn.compile_fresh (h : u.LiesIn names) (hnames : ∀ n ∈ names, IsOrdinary n)
    (hflat : now.FlatAt (Path.rooted names) base) (hrefreshes : help.toolchain.Refreshes fs u)
    (hsame : SameView fs now u.source) {record : UnitRecord}
    (hok : (u.compile help force now).result = .ok record) :
    ChangedWithin base [u.program, u.artifact] now (u.compile help force now).files ∧
      Staleness.ofUnit (u.compile help force now).files u = .ok .upToDate := by
  rcases compile_ok hok with ⟨-, hstale, hfiles⟩ | ⟨sql, written, hread, hwrite, hsuccess, hfiles⟩
  · rw [hfiles]
    exact ⟨ChangedWithin.refl _ _ _, hstale⟩
  · rw [hfiles]
    exact h.call_fresh hnames hflat hrefreshes hsame hread hwrite hsuccess

theorem compile_upToDate (help : Collaborators)
    (h : Staleness.ofUnit fs u = .ok .upToDate) :
    u.compile help false fs = ⟨.ok (.ofUnit fs u .upToDate), fs, []⟩ := by
  rw [compile, h]
  rfl

end BuildUnit

namespace BuildPlan

section

variable {names : List String} {base : Location} {plan : BuildPlan} {help : Collaborators}
  {force : Bool} {fs now : FileSystem}

/-- A compile phase that succeeds leaves the artifacts of its units newer than their sources, and
the files of the other units alone. -/
theorem upToDate_phase (hlaid : plan.LaidOut names) (hsep : plan.Separate)
    (hrefreshes : ∀ u ∈ plan.order, help.toolchain.Refreshes fs u) {units : List BuildUnit}
    (hunits : units ⊆ plan.order) (hnodup : units.Nodup)
    (hflat : now.FlatAt (Path.rooted names) base)
    (hsame : ∀ u ∈ units, SameView fs now u.source) {records : List UnitRecord}
    (hok : (plan.phase .compile (BuildUnit.compile help force) units now).outcome = .ok records) :
    let files := (plan.phase .compile (BuildUnit.compile help force) units now).files
    (∀ u ∈ units, Staleness.ofUnit files u = .ok .upToDate) ∧
      ∀ v ∈ plan.order, v ∉ units → v.SameFiles now files := by
  dsimp only
  induction units generalizing now records with
  | nil => exact ⟨by simp, fun v _ _ => ⟨SameView.refl _ _, SameView.refl _ _, SameView.refl _ _⟩⟩
  | cons u units ih =>
    have hu : u ∈ plan.order := hunits List.mem_cons_self
    have hrest : units ⊆ plan.order := fun v hv => hunits (List.mem_cons_of_mem _ hv)
    obtain ⟨hnot, hnodup⟩ := List.nodup_cons.mp hnodup
    cases hresult : (u.compile help force now).result with
    | error e =>
      rw [phase_cons_error hresult] at hok
      cases hok
    | ok record =>
      rw [phase_cons_ok hresult] at hok ⊢
      obtain ⟨later, hlater, -⟩ := BuildResult.ok_of_after hok
      obtain ⟨hchanged, hfresh⟩ := (hlaid.units u hu).compile_fresh hlaid.ordinary hflat
        (hrefreshes u hu) (hsame u List.mem_cons_self) hresult
      have hothers : ∀ v ∈ plan.order, u ≠ v → v.SameFiles now (u.compile help force now).files :=
        fun v hv hne => sameFiles_of_changedWithin hlaid hsep hflat hu hchanged hv hne
      obtain ⟨hfresh', hothers'⟩ := ih hrest hnodup (hflat.of_sameShape hchanged.shape)
        (fun v hv => (hsame v (List.mem_cons_of_mem _ hv)).trans
          (hothers v (hrest hv) fun heq => hnot (heq ▸ hv)).source) hlater
      constructor
      · intro v hv
        rcases List.mem_cons.mp hv with rfl | hv
        · -- the units behind the first one leave its source and its artifact alone
          exact (hothers' v hu hnot).staleness.trans hfresh
        · exact hfresh' v hv
      · intro v hv hv'
        rw [List.mem_cons, not_or] at hv'
        exact (hothers v hv (Ne.symm hv'.1)).trans (hothers' v hv hv'.2)

/-- A compile phase does nothing about artifacts that are newer than their sources. -/
theorem phase_upToDate (plan : BuildPlan) (help : Collaborators) {units : List BuildUnit}
    (h : ∀ u ∈ units, Staleness.ofUnit fs u = .ok .upToDate) :
    plan.phase .compile (BuildUnit.compile help false) units fs =
      ⟨.ok (units.map fun u => .ofUnit fs u .upToDate), fs,
        units.map fun u => .finished .compile (.ofUnit fs u .upToDate)⟩ := by
  induction units with
  | nil => rfl
  | cons u units ih =>
    have hfirst := BuildUnit.compile_upToDate help (h u List.mem_cons_self)
    have hresult : (u.compile help false fs).result = .ok (.ofUnit fs u .upToDate) := by
      rw [hfirst]
    rw [phase_cons_ok hresult, hfirst, ih fun v hv => h v (List.mem_cons_of_mem _ hv)]
    rfl

/-- To compile again does nothing: no artifact is made, no compiler is called, no file changes and
every unit is reported as up to date, whoever would help with it. -/
theorem compile_again {extract : Extractor} {found : FileSystem} {path : Path}
    {records : List UnitRecord} (hplan : (resolveWith extract found path).2 = .ok plan)
    (hfound : found.WellKept) (hsep : plan.Separate)
    (hflat : ∃ base, fs.FlatAt plan.directory base)
    (hrefreshes : ∀ u ∈ plan.order, help.toolchain.Refreshes fs u)
    (hok : (plan.compile help force fs).outcome = .ok records) (again : Collaborators) :
    let files := (plan.compile help force fs).files
    plan.compile again false files =
      ⟨.ok (plan.order.map fun u => .ofUnit files u .upToDate), files,
        plan.order.map fun u => .finished .compile (.ofUnit files u .upToDate)⟩ := by
  obtain ⟨names, hlaid⟩ := laidOut_of_resolveWith hplan hfound hsep.named
  obtain ⟨base, hflat⟩ := hflat
  rw [hlaid.directory] at hflat
  have hnodup : plan.order.Nodup := (resolved_of_resolveWith hplan).nodup.of_map
  have hfresh := (upToDate_phase hlaid hsep hrefreshes (List.Subset.refl _) hnodup hflat
    (fun u _ => SameView.refl fs u.source) hok).1
  exact phase_upToDate plan again hfresh

namespace Sample

/-- The artifacts are made after the sources were edited. -/
def waiting : Collaborators :=
  { idle with toolchain := .notBefore 2 (.prompt String.toUTF8) }

theorem compiles_waiting : waiting.toolchain.Compiles String.toUTF8 :=
  (Toolchain.compiles_prompt String.toUTF8).notBefore 2

theorem able_waiting : waiting.toolchain.Able :=
  (Toolchain.able_prompt String.toUTF8).notBefore 2

theorem refreshes_waiting {fs : FileSystem} {u : BuildUnit}
    (hedited : fs.modified u.source = .ok 1) : waiting.toolchain.Refreshes fs u := by
  refine (Toolchain.compiles_prompt String.toUTF8).refreshes fun edited hmodified => ?_
  cases hedited.symm.trans hmodified
  decide

end Sample

/-- Two units without artifacts are compiled, the third one is up to date, and a second phase finds
nothing to do. -/
theorem compiled_units_up_to_date :
    (∀ u ∈ [Sample.first, Sample.second],
      Staleness.ofUnit Sample.partly u = .ok .missing) ∧
    Staleness.ofUnit Sample.partly Sample.third = .ok .upToDate ∧
    (∃ records, (Sample.triple.compile Sample.waiting false Sample.partly).outcome = .ok records) ∧
    let files := (Sample.triple.compile Sample.waiting false Sample.partly).files
    Sample.triple.compile Sample.waiting false files =
      ⟨.ok [.ofUnit files Sample.first .upToDate, .ofUnit files Sample.second .upToDate,
        .ofUnit files Sample.third .upToDate], files,
        [.finished .compile (.ofUnit files Sample.first .upToDate),
          .finished .compile (.ofUnit files Sample.second .upToDate),
          .finished .compile (.ofUnit files Sample.third .upToDate)]⟩ := by
  obtain ⟨records, hok⟩ := compile_ready Sample.resolve_sources Sample.wellKept_sources
    Sample.separate_triple Sample.flatAt_partly Sample.compiles_waiting.confined
    Sample.able_waiting false fun u hu => Sample.ready_partly hu
  refine ⟨Sample.missing_partly, Sample.upToDate_partly, ⟨records, hok⟩, ?_⟩
  exact compile_again Sample.resolve_sources Sample.wellKept_sources Sample.separate_triple
    Sample.flatAt_partly
    (fun u hu => Sample.refreshes_waiting (Sample.modified_partly hu)) hok Sample.waiting

end

end BuildPlan

end QueryBuild

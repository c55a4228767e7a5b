import QueryBuild.Proofs.Build.Compiler
import QueryBuild.Proofs.Build.Failure
/-!
# What newer artifacts are made from

An artifact that is newer than its source was made from the text that the source has now. This
holds at every moment, whatever was edited, removed and compiled before, and however compilations
failed.
-/

namespace QueryBuild

namespace FileSystem

/-- Nothing lies where a path leads. -/
def Vacant (fs : FileSystem) (path : Path) : Prop :=
  ∀ follow found, fs.resolve follow path = .ok found → found.entry = none

end FileSystem

namespace BuildUnit

/-- The artifact of a unit is made from the text that the source has. -/
def Made (make : String → ByteArray) (u : BuildUnit) (fs : FileSystem) : Prop :=
  ∃ text, u.sourceText fs = .ok text ∧
    fs.read u.artifact = .ok (make (Program.render u text).source)

/-- The artifact of a unit, if there is one, was built in the past, and it is made from the text
that the source has if it is newer than the source. -/
def Sound (make : String → ByteArray) (u : BuildUnit) (fs : FileSystem) : Prop :=
  ∀ built, fs.modified u.artifact = .ok built → built ≤ fs.now ∧
    ∀ edited, fs.modified u.source = .ok edited → edited < built → u.Made make fs

section

open FileSystem

variable {make : String → ByteArray} {u : BuildUnit} {fs fs' : FileSystem}

theorem Made.of_sameAt (h : u.Made make fs) (hsource : SameAt fs fs' u.source)
    (hartifact : SameAt fs fs' u.artifact) : u.Made make fs' := by
  obtain ⟨text, htext, hread⟩ := h
  exact ⟨text, (hsource.readText text).mpr htext, (hartifact.read _).mpr hread⟩

theorem Sound.of_sameAt (h : u.Sound make fs) (hnow : fs.now ≤ fs'.now)
    (hsource : SameAt fs fs' u.source) (hartifact : SameAt fs fs' u.artifact) :
    u.Sound make fs' := by
  intro built hbuilt
  obtain ⟨hpast, hmade⟩ := h built ((hartifact.modified built).mp hbuilt)
  refine ⟨Int.le_trans hpast hnow, fun edited hedited hnewer => ?_⟩
  exact (hmade edited ((hsource.modified edited).mp hedited) hnewer).of_sameAt hsource hartifact

end

end BuildUnit

namespace BuildPlan

/-- The files that are reached from some files while time passes, sources are edited, artifacts are
removed and the plan is compiled, by any compilers that make the same artifacts. -/
inductive Evolves (plan : BuildPlan) (make : String → ByteArray) (start : FileSystem) :
    FileSystem → Prop
  | start : Evolves plan make start start
  | wait {fs : FileSystem} (before : Evolves plan make start fs) {time : Instant}
      (later : fs.now ≤ time) : Evolves plan make start (fs.setClock time)
  | edit {fs fs' : FileSystem} (before : Evolves plan make start fs) {u : BuildUnit}
      (known : u ∈ plan.order) {text : String} (written : fs.writeText u.source text = .ok fs') :
      Evolves plan make start fs'
  | remove {fs fs' : FileSystem} (before : Evolves plan make start fs) {u : BuildUnit}
      (known : u ∈ plan.order) (removed : fs.remove u.artifact = .ok fs') :
      Evolves plan make start fs'
  | compile {fs : FileSystem} (before : Evolves plan make start fs) (help : Collaborators)
      (force : Bool) (compiles : help.toolchain.Compiles make) :
      Evolves plan make start (plan.compile help force fs).files

/-- What holds of the files of a plan at every moment. -/
structure Kept (names : List String) (base : Location) (make : String → ByteArray)
    (plan : BuildPlan) (fs : FileSystem) : Prop where
  flat : fs.FlatAt (Path.rooted names) base
  bare : ∀ u ∈ plan.order, ∀ follow found, fs.resolve follow u.artifact = .ok found →
    fs.NoPassage (u.artifact.locationIn base) ∧
      ∀ more, more ≠ [] → fs.get? (u.artifact.locationIn base ++ more) = none
  sound : ∀ u ∈ plan.order, u.Sound make fs

section

open FileSystem

variable {names : List String} {base : Location} {make : String → ByteArray} {plan : BuildPlan}
  {fs fs' : FileSystem} {u : BuildUnit}

/-- What is kept besides the state of the artifacts is kept if only entries are touched. -/
theorem Kept.of_touchedOnly (h : Kept names base make plan fs) {paths : List Path}
    (ht : TouchedOnly base paths fs fs') (hsound : ∀ u ∈ plan.order, u.Sound make fs') :
    Kept names base make plan fs' where
  flat := h.flat.of_sameShape ht.shape
  bare u hu follow found hfound := by
    obtain ⟨hfile, hbelow⟩ := h.bare u hu follow _ (resolve_of_sameShape ht.shape.symm hfound)
    refine ⟨(ht.shape.passage _).trans hfile, fun more hmore => ?_⟩
    rw [ht.kept, hbelow more hmore]
    · simp [Path.locationIn]
    · intro path _ hsame
      have hlength := congrArg List.length hsame
      exact hmore (by simpa [Path.locationIn] using hlength)
  sound := hsound

theorem Kept.sound_of_untouched (h : Kept names base make plan fs) (hlaid : plan.LaidOut names)
    {paths : List Path} (ht : TouchedOnly base paths fs fs')
    (hpaths : ∀ path ∈ paths, path.IsEntry names) (hu : u ∈ plan.order)
    (hsource : u.source ∉ paths) (hartifact : u.artifact ∉ paths) : u.Sound make fs' :=
  (h.sound u hu).of_sameAt ht.now
    (ht.sameAt h.flat hlaid.ordinary hpaths (hlaid.units u hu).source_isEntry hsource)
    (ht.sameAt h.flat hlaid.ordinary hpaths (hlaid.units u hu).artifact_isEntry hartifact)

/-! ### Steps between compilations -/

theorem Kept.wait (h : Kept names base make plan fs) (hlaid : plan.LaidOut names) {time : Instant}
    (hlater : fs.now ≤ time) : Kept names base make plan (fs.setClock time) := by
  have ht : TouchedOnly base [] fs (fs.setClock time) := touchedOnly_setClock hlater
  apply h.of_touchedOnly ht
  intro u hu
  exact h.sound_of_untouched hlaid ht (by simp) hu (by simp) (by simp)

theorem Kept.edit (h : Kept names base make plan fs) (hlaid : plan.LaidOut names)
    (hsep : plan.Separate) (hu : u ∈ plan.order) {text : String}
    (hw : fs.writeText u.source text = .ok fs') : Kept names base make plan fs' := by
  have hentry := (hlaid.units u hu).source_isEntry
  obtain ⟨ht, executable, hfind⟩ := h.flat.write hlaid.ordinary hentry hw
  have hpaths : ∀ path ∈ [u.source], path.IsEntry names := by simpa using hentry
  apply h.of_touchedOnly ht
  intro v hv
  have hartifact : v.artifact ∉ [u.source] := by
    by_cases hvu : v = u
    · subst hvu
      simpa using ((hlaid.units v hv).source_ne_artifact hlaid.ordinary).symm
    · have hapart := hsep.apart v hv u hu hvu v.artifact (by simp)
      simp at hapart ⊢
      exact hapart.1
  by_cases hsource : v.source ∈ [u.source]
  · -- an artifact that was built in the past is not newer than what is edited now
    have hsame : v.source = u.source := by simpa using hsource
    have hkept := ht.sameAt h.flat hlaid.ordinary hpaths (hlaid.units v hv).artifact_isEntry
      hartifact
    intro built hbuilt
    have hpast := (h.sound v hv built ((hkept.modified built).mp hbuilt)).1
    refine ⟨Int.le_trans hpast ht.now, fun edited hedited hnewer => ?_⟩
    obtain ⟨found, hfound, htime⟩ := modified_eq_ok.mp hedited
    rw [hsame, hfind] at hfound
    cases hfound
    have hnow : fs.now = edited := htime
    rw [hnow] at hpast
    exact absurd hnewer (Int.not_lt.mpr hpast)
  · exact h.sound_of_untouched hlaid ht hpaths hv hsource hartifact

/-- To remove an artifact touches nothing else, and nothing is left where it was. -/
theorem Kept.removed (h : Kept names base make plan fs) (hlaid : plan.LaidOut names)
    (hu : u ∈ plan.order) (hr : fs.remove u.artifact = .ok fs') :
    TouchedOnly base [u.artifact] fs fs' ∧ ∀ found, fs'.find u.artifact ≠ .ok found := by
  obtain ⟨found, hfound⟩ := resolve_of_remove hr
  obtain ⟨hfile, hbelow⟩ := h.bare u hu false found hfound
  exact h.flat.remove hlaid.ordinary (hlaid.units u hu).artifact_isEntry hfile hbelow hr

theorem Kept.remove (h : Kept names base make plan fs) (hlaid : plan.LaidOut names)
    (hsep : plan.Separate) (hu : u ∈ plan.order) (hr : fs.remove u.artifact = .ok fs') :
    Kept names base make plan fs' := by
  have hentry := (hlaid.units u hu).artifact_isEntry
  obtain ⟨ht, hgone⟩ := h.removed hlaid hu hr
  apply h.of_touchedOnly ht
  intro v hv
  by_cases huv : u = v
  · subst huv
    intro built hbuilt
    obtain ⟨held, hheld, -⟩ := modified_eq_ok.mp hbuilt
    exact absurd hheld (hgone held)
  · have hsource := hsep.source_untouched hlaid hu hv
    have hartifact := hsep.artifact_untouched hu hv huv
    exact h.sound_of_untouched hlaid ht (by simpa using hentry) hv
      (fun hmem => hsource (List.mem_cons_of_mem _ hmem))
      (fun hmem => hartifact (List.mem_cons_of_mem _ hmem))

/-! ### Compilations -/

/-- To build a unit touches its program and its artifact, and makes the artifact if it succeeds. -/
theorem Kept.build (h : Kept names base make plan fs) (hlaid : plan.LaidOut names)
    (hsep : plan.Separate) (hu : u ∈ plan.order) {help : Collaborators}
    (hcompiles : help.toolchain.Compiles make) :
    let done := u.build help fs
    TouchedOnly base [u.program, u.artifact] fs done.files ∧ u.Sound make done.files ∧
      (done.result = .ok () → u.Made make done.files) := by
  dsimp only
  rcases BuildUnit.build_cases help u fs with
    ⟨e, events, -, hbuild⟩ | ⟨text, fs₁, htext, -, hwritten, hbuild⟩
  · rw [hbuild]
    refine ⟨TouchedOnly.refl _ _ _, h.sound u hu, ?_⟩
    intro hok
    cases hok
  · have hnames := hlaid.ordinary
    have hsourceEntry := (hlaid.units u hu).source_isEntry
    have hartifactEntry := (hlaid.units u hu).artifact_isEntry
    obtain ⟨hwrite, before, hplaced⟩ :=
      h.flat.write hnames (hlaid.units u hu).program_isEntry hwritten
    have hprogram := readText_of_find hplaced
    have hpaths : ∀ path ∈ [u.program, u.artifact], path.IsEntry names := by
      simpa using ⟨(hlaid.units u hu).program_isEntry, hartifactEntry⟩
    have hwrite' : TouchedOnly base [u.program, u.artifact] fs fs₁ := hwrite.mono (by simp)
    have hflat := h.flat.of_sameShape hwrite.shape
    rw [hbuild]
    dsimp only
    rcases hcompiles.touched hflat hnames hartifactEntry hprogram with
      ⟨hmade, time, executable, hpast, hfind⟩ | ⟨hnothing, hfailed⟩
    · have ht := hwrite'.trans (hmade.mono (by simp))
      have hsource := (ht.sameAt h.flat hnames hpaths hsourceEntry
        (hsep.source_untouched hlaid hu hu)).readText text
      have hresult : u.Made make (help.toolchain u.program u.artifact fs₁).files :=
        ⟨text, hsource.mpr htext, read_eq_ok.mpr ⟨_, _, _, hfind⟩⟩
      refine ⟨ht, ?_, fun _ => hresult⟩
      intro built hbuilt
      obtain ⟨found, hfound, htime⟩ := modified_eq_ok.mp hbuilt
      cases hfind.symm.trans hfound
      exact ⟨htime ▸ hpast, fun _ _ _ => hresult⟩
    · have ht := hwrite.trans (hnothing.mono (by simp))
      have hnot : u.artifact ∉ [u.program] := by
        simpa using ((hlaid.units u hu).program_ne_artifact hnames).symm
      refine ⟨ht.mono (by simp), ?_, fun hok => ?_⟩
      · exact h.sound_of_untouched hlaid ht (fun path hp => hpaths path (by simp at hp; simp [hp]))
          hu (fun hmem => hsep.source_untouched hlaid hu hu (by simp at hmem; simp [hmem])) hnot
      · obtain ⟨ended, hended, hwell⟩ := BuildUnit.success_of_judge hok
        rw [hfailed ended hended] at hwell
        cases hwell

/-- An artifact that need not be built again is newer than the source. -/
theorem newer_of_not_needsRebuild {staleness : Staleness}
    (hs : Staleness.ofUnit fs u = .ok staleness) (hkeep : staleness.needsRebuild = false) :
    ∃ built edited, fs.modified u.artifact = .ok built ∧ fs.modified u.source = .ok edited ∧
      edited < built := by
  rw [Staleness.ofUnit, Staleness.check] at hs
  split at hs
  · split at hs
    · cases hs
      cases hkeep
    · cases hs
  · rename_i built hbuilt
    obtain ⟨edited, hedited, rfl⟩ := ok_of_map hs
    refine ⟨built, edited, hbuilt, hedited, ?_⟩
    by_contra hnot
    rw [Staleness.compare, if_neg hnot] at hkeep
    cases hkeep

/-- To compile a unit touches its program and its artifact at most. If that succeeds, the artifact
is made from the text of the source. -/
theorem Kept.compileUnit (h : Kept names base make plan fs) (hlaid : plan.LaidOut names)
    (hsep : plan.Separate) (hu : u ∈ plan.order) {help : Collaborators}
    (hcompiles : help.toolchain.Compiles make) (force : Bool) :
    let done := u.compile help force fs
    TouchedOnly base [u.program, u.artifact] fs done.files ∧
      Kept names base make plan done.files ∧
      ∀ record, done.result = .ok record → u.Made make done.files := by
  have hpaths : ∀ path ∈ [u.program, u.artifact], path.IsEntry names := by
    simpa using ⟨(hlaid.units u hu).program_isEntry, (hlaid.units u hu).artifact_isEntry⟩
  dsimp only
  rw [BuildUnit.compile]
  split
  · refine ⟨TouchedOnly.refl _ _ _, h, ?_⟩
    intro record hok
    cases hok
  · rename_i staleness hstaleness
    split
    · rename_i hkeep
      simp only [Bool.and_eq_true, Bool.not_eq_true'] at hkeep
      obtain ⟨built, edited, hbuilt, hedited, hnewer⟩ :=
        newer_of_not_needsRebuild hstaleness hkeep.2
      exact ⟨TouchedOnly.refl _ _ _, h,
        fun _ _ => (h.sound u hu built hbuilt).2 edited hedited hnewer⟩
    · obtain ⟨ht, hsound, hmade⟩ := h.build hlaid hsep hu hcompiles
      refine ⟨ht, h.of_touchedOnly ht fun v hv => ?_, fun record hok => ?_⟩
      · by_cases huv : u = v
        · exact huv ▸ hsound
        · exact h.sound_of_untouched hlaid ht hpaths hv (hsep.source_untouched hlaid hu hv)
            (hsep.artifact_untouched hu hv huv)
      · obtain ⟨_, hresult, -⟩ := ok_of_map hok
        exact hmade hresult

/-- To compile some units of a plan leaves all sources and the artifacts of the other units as they
are. If that succeeds, the artifacts of those units are made from the texts of their sources. -/
theorem Kept.compileUnits (h : Kept names base make plan fs) (hlaid : plan.LaidOut names)
    (hsep : plan.Separate) {help : Collaborators} (hcompiles : help.toolchain.Compiles make)
    (force : Bool) {units : List BuildUnit} (hunits : units ⊆ plan.order) (hnodup : units.Nodup) :
    let result := plan.phase .compile (BuildUnit.compile help force) units fs
    Kept names base make plan result.files ∧
      (∀ v ∈ plan.order, SameAt fs result.files v.source) ∧
      (∀ v ∈ plan.order, v ∉ units → SameAt fs result.files v.artifact) ∧
      ∀ records, result.outcome = .ok records → ∀ u ∈ units, u.Made make result.files := by
  dsimp only
  induction units generalizing fs with
  | nil =>
    refine ⟨h, fun _ _ => SameAt.refl _ _, fun _ _ _ => SameAt.refl _ _, ?_⟩
    intro records hok u hu
    cases hu
  | cons u units ih =>
    have hu : u ∈ plan.order := hunits List.mem_cons_self
    have hrest : units ⊆ plan.order := fun v hv => hunits (List.mem_cons_of_mem _ hv)
    obtain ⟨hnot, hnodup⟩ := List.nodup_cons.mp hnodup
    have hpaths : ∀ path ∈ [u.program, u.artifact], path.IsEntry names := by
      simpa using ⟨(hlaid.units u hu).program_isEntry, (hlaid.units u hu).artifact_isEntry⟩
    obtain ⟨ht, hkept, hmade⟩ := h.compileUnit hlaid hsep hu hcompiles force
    have hsources : ∀ v ∈ plan.order,
        SameAt fs (u.compile help force fs).files v.source := fun v hv =>
      ht.sameAt h.flat hlaid.ordinary hpaths (hlaid.units v hv).source_isEntry
        (hsep.source_untouched hlaid hu hv)
    have hartifacts : ∀ v ∈ plan.order, u ≠ v →
        SameAt fs (u.compile help force fs).files v.artifact := fun v hv hne =>
      ht.sameAt h.flat hlaid.ordinary hpaths (hlaid.units v hv).artifact_isEntry
        (hsep.artifact_untouched hu hv hne)
    cases hresult : (u.compile help force fs).result with
    | error e =>
      rw [phase_cons_error hresult]
      refine ⟨hkept, hsources, fun v hv hv' => hartifacts v hv ?_, ?_⟩
      · exact fun heq => hv' (heq ▸ List.mem_cons_self)
      · intro records hok
        cases hok
    | ok record =>
      rw [phase_cons_ok hresult]
      obtain ⟨hkept', hsources', hartifacts', hmade'⟩ := ih hkept hrest hnodup
      refine ⟨hkept', fun v hv => (hsources v hv).trans (hsources' v hv), fun v hv hv' => ?_, ?_⟩
      · have hne : u ≠ v := fun heq => hv' (heq ▸ List.mem_cons_self)
        exact (hartifacts v hv hne).trans
          (hartifacts' v hv fun hmem => hv' (List.mem_cons_of_mem _ hmem))
      · intro records hok v hv
        obtain ⟨later, hlater, -⟩ := BuildResult.ok_of_after hok
        rcases List.mem_cons.mp hv with rfl | hv
        · exact (hmade record hresult).of_sameAt (hsources' v hu) (hartifacts' v hu hnot)
        · exact hmade' later hlater v hv

/-- At every moment, the artifacts that are newer than their sources are made from them. -/
theorem kept_of_evolves {start : FileSystem} (hlaid : plan.LaidOut names) (hsep : plan.Separate)
    (hnodup : plan.order.Nodup) (hstart : Kept names base make plan start)
    (hevolves : plan.Evolves make start fs) : Kept names base make plan fs := by
  induction hevolves with
  | start => exact hstart
  | wait before later ih => exact ih.wait hlaid later
  | edit before known written ih => exact ih.edit hlaid hsep known written
  | remove before known removed ih => exact ih.remove hlaid hsep known removed
  | compile before help force compiles ih =>
    exact (ih.compileUnits hlaid hsep compiles force (List.Subset.refl _) hnodup).1

theorem kept_of_vacant {start : FileSystem} (hlaid : plan.LaidOut names)
    (hflat : start.FlatAt (Path.rooted names) base) (hstart : start.WellKept)
    (hvacant : ∀ u ∈ plan.order, start.Vacant u.artifact) :
    Kept names base make plan start where
  flat := hflat
  bare u hu follow found hfound := by
    have hleads := hflat.leads hlaid.ordinary (hlaid.units u hu).artifact_isEntry
    have hnone : start.get? (u.artifact.locationIn base) = none := by
      have hentry := hvacant u hu follow found hfound
      rwa [hleads follow found hfound] at hentry
    refine ⟨?_, fun more _ => hstart.below hnone more⟩
    rw [NoPassage, hnone]
    rfl
  sound u hu built hbuilt := by
    obtain ⟨⟨location, entry⟩, hfound, -⟩ := modified_eq_ok.mp hbuilt
    cases hvacant u hu true _ (find_eq_ok.mp hfound)

end

end BuildPlan

end QueryBuild

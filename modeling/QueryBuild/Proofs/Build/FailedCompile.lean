import QueryBuild.Proofs.Build.Pointwise
/-!
# What a compile phase that fails leaves alone

A compile phase writes programs and artifacts of units that are due, one unit after the other, and
of no unit behind the one at which it fails. What else there is in the directory stays, and that
unit is left alone as well if the compiler was not called for it. So the output of a unit stays,
too, unless it is the artifact of another one whose name ends as outputs do.
-/

namespace QueryBuild

open FileSystem Event

/-- The files that compiling some units may write. -/
def BuildUnit.made (units : List BuildUnit) : List Path :=
  units.flatMap fun u => [u.program, u.artifact]

/-- Whether a build stopped because the compiler did, not before it was called. -/
def BuildError.ofCompiler : BuildError → Bool
  | .notCompiled _ _ _ => true
  | _ => false

namespace BuildUnit

variable {names : List String} {base : Location} {help : Collaborators} {force : Bool}
  {fs now : FileSystem} {u : BuildUnit} {units units' : List BuildUnit}

theorem mem_made {path : Path} :
    path ∈ made units ↔ ∃ u ∈ units, path ∈ [u.program, u.artifact] := by
  rw [made, List.mem_flatMap]

theorem made_mono (h : units ⊆ units') : made units ⊆ made units' := by
  intro path hpath
  obtain ⟨u, hu, hmem⟩ := mem_made.mp hpath
  exact mem_made.mpr ⟨u, h hu, hmem⟩

/-! ### One unit -/

theorem compile_of_not_isDue (h : u.isDue force now = false) :
    (u.compile help force now).files = now := by
  rw [compile]
  cases hstale : Staleness.ofUnit now u with
  | error e => rfl
  | ok staleness =>
    rw [isDue_of_staleness hstale] at h
    have hkeep : (!force && !staleness.needsRebuild) = true := by simpa using h
    simp only [hkeep, if_true]

/-- To compile a unit changes its program and its artifact at most, and nothing if it is not due. -/
theorem LiesIn.compile_made (h : u.LiesIn names) (hnames : ∀ n ∈ names, IsOrdinary n)
    (hflat : now.FlatAt (Path.rooted names) base) (hconfined : help.toolchain.Confined)
    (force : Bool) :
    ChangedWithin base (made ([u].filter fun v => v.isDue force now)) now
      (u.compile help force now).files := by
  cases hdue : u.isDue force now with
  | true =>
    have hmade : made ([u].filter fun v => v.isDue force now) = [u.program, u.artifact] := by
      simp [made, hdue]
    rw [hmade]
    exact h.compile_changedWithin hnames hflat hconfined force
  | false =>
    rw [compile_of_not_isDue hdue]
    exact ChangedWithin.refl _ _ _

theorem ofCompiler_of_judge {refused name : String} {result : Except IoError ProcessOutput}
    {e : BuildError} (h : judge refused (.notCompiled name) result = .error e) :
    e.ofCompiler = true := by
  cases result with
  | error cause =>
    cases h
    rfl
  | ok output =>
    rw [judge] at h
    split at h
    · cases h
    · cases h
      rfl

/-- A unit that is not compiled for another reason than the compiler is left alone, and the compiler
is not called. -/
theorem compile_stopped {e : BuildError} (h : (u.compile help force now).result = .error e)
    (hbefore : e.ofCompiler = false) :
    (u.compile help force now).files = now ∧ compiled (u.compile help force now).events = [] := by
  rw [compile] at h ⊢
  cases hstale : Staleness.ofUnit now u with
  | error cause => exact ⟨rfl, rfl⟩
  | ok staleness =>
    simp only [hstale] at h ⊢
    split at h
    · cases h
    · rename_i hbuild
      rw [if_neg hbuild]
      have hfailed := error_of_map h
      rcases build_cases help u now with
        ⟨e', events, hproduced, hbuilt⟩ | ⟨sql, written, -, -, -, hcalled⟩
      · rw [hbuilt]
        cases hproduced <;> exact ⟨rfl, rfl⟩
      · rw [hcalled] at hfailed
        rw [ofCompiler_of_judge hfailed] at hbefore
        cases hbefore

end BuildUnit

open BuildUnit

namespace BuildPlan

/-! ### Several units -/

section

variable {names : List String} {base : Location} {plan : BuildPlan} {help : Collaborators}
  {force : Bool} {fs now files : FileSystem} {u v : BuildUnit} {units : List BuildUnit}

theorem LaidOut.made_isEntry (hlaid : plan.LaidOut names) (hunits : units ⊆ plan.order) :
    ∀ path ∈ made units, path.IsEntry names := by
  intro path hpath
  obtain ⟨u, hu, hmem⟩ := mem_made.mp hpath
  have hlies := hlaid.units u (hunits hu)
  rcases List.mem_cons.mp hmem with rfl | hmem
  · exact hlies.program_isEntry
  · exact List.mem_singleton.mp hmem ▸ hlies.artifact_isEntry

theorem Separate.source_not_made (hsep : plan.Separate) (hlaid : plan.LaidOut names)
    (hunits : units ⊆ plan.order) (hv : v ∈ plan.order) : v.source ∉ made units := by
  intro hmade
  obtain ⟨u, hu, hmem⟩ := mem_made.mp hmade
  exact hsep.source_untouched hlaid (hunits hu) hv hmem

/-- What is made of some units leaves the files of every other unit alone. -/
theorem sameFiles_of_made (hlaid : plan.LaidOut names) (hsep : plan.Separate)
    (hflat : now.FlatAt (Path.rooted names) base) (hunits : units ⊆ plan.order)
    (hchanged : ChangedWithin base (made units) now files) (hv : v ∈ plan.order)
    (hnot : v ∉ units) : v.SameFiles now files := by
  have hview : ∀ path, path.IsEntry names → path ∉ made units → SameView now files path :=
    fun path hpath hpathNot => hchanged.sameView hflat hlaid.ordinary
      (hlaid.made_isEntry hunits) hpath hpathNot
  have hne : ∀ u ∈ units, u ≠ v := fun u hu heq => hnot (heq ▸ hu)
  refine ⟨hview _ (hlaid.units v hv).source_isEntry (hsep.source_not_made hlaid hunits hv),
    hview _ (hlaid.units v hv).program_isEntry ?_, hview _ (hlaid.units v hv).artifact_isEntry ?_⟩
  · intro hmade
    obtain ⟨u, hu, hmem⟩ := mem_made.mp hmade
    exact hsep.program_untouched (hunits hu) hv (hne u hu) hmem
  · intro hmade
    obtain ⟨u, hu, hmem⟩ := mem_made.mp hmade
    exact hsep.artifact_untouched (hunits hu) hv (hne u hu) hmem

/-- A compile phase changes the programs and artifacts of units at most that were due before it. -/
theorem phase_changedWithin (hlaid : plan.LaidOut names) (hsep : plan.Separate)
    (hconfined : help.toolchain.Confined) (force : Bool) (hunits : units ⊆ plan.order)
    (hnodup : units.Nodup) (hflat : now.FlatAt (Path.rooted names) base)
    (hsame : ∀ u ∈ units, u.SameFiles fs now) :
    ChangedWithin base (made (units.filter fun u => u.isDue force fs)) now
      (plan.phase .compile (BuildUnit.compile help force) units now).files := by
  induction units generalizing now with
  | nil => exact ChangedWithin.refl _ _ _
  | cons u units ih =>
    have hu : u ∈ plan.order := hunits List.mem_cons_self
    have hrest : units ⊆ plan.order := fun v hv => hunits (List.mem_cons_of_mem _ hv)
    obtain ⟨hnot, hnodup⟩ := List.nodup_cons.mp hnodup
    have hmade := (hlaid.units u hu).compile_made hlaid.ordinary hflat hconfined force
    have hdue : ([u].filter fun v => v.isDue force now) = [u].filter fun v => v.isDue force fs := by
      rw [List.filter_singleton, List.filter_singleton, (hsame u List.mem_cons_self).isDue]
    rw [hdue] at hmade
    have hfront : [u].Sublist (u :: units) := List.singleton_sublist.mpr List.mem_cons_self
    have hfirst := hmade.mono (made_mono (hfront.filter fun v => v.isDue force fs).subset)
    cases hresult : (u.compile help force now).result with
    | error e =>
      rw [phase_cons_error hresult]
      exact hfirst
    | ok record =>
      have hlater := ih hrest hnodup (hflat.of_sameShape hmade.shape) fun v hv =>
        (hsame v (List.mem_cons_of_mem _ hv)).trans (sameFiles_of_changedWithin hlaid hsep hflat hu
          ((hlaid.units u hu).compile_changedWithin hlaid.ordinary hflat hconfined force)
          (hrest hv) fun heq => hnot (heq ▸ hv))
      rw [phase_cons_ok hresult]
      exact hfirst.trans (hlater.mono
        (made_mono ((List.sublist_cons_self u units).filter fun v => v.isDue force fs).subset))

/-- A phase that stops did on the units in front of the failed one what it does on these alone. -/
theorem events_of_stop {kind : Phase} {step : BuildUnit → FileSystem → Step UnitRecord}
    {done : List BuildUnit} {completed : List UnitRecord} {e : BuildError}
    (hdone : (plan.phase kind step done fs).outcome = .ok completed)
    (hstop : (step u (plan.phase kind step done fs).files).result = .error e)
    (rest : List BuildUnit) :
    (plan.phase kind step (done ++ u :: rest) fs).events =
      (plan.phase kind step done fs).events ++
        (step u (plan.phase kind step done fs).files).events := by
  rw [phase_append_ok hdone, phase_cons_error hstop]
  rfl

theorem SameFiles.refl_of_mem {units : List BuildUnit} (fs : FileSystem) :
    ∀ v ∈ units, v.SameFiles fs fs :=
  fun _ _ => ⟨SameView.refl fs _, SameView.refl fs _, SameView.refl fs _⟩

/-- Where units stand only once, none of those in front of one stands there again or behind it. -/
theorem once_of_split {done rest : List BuildUnit} (hsplit : plan.order = done ++ u :: rest)
    (hnodup : plan.order.Nodup) :
    done.Nodup ∧ u ∉ done ∧ ∀ v ∈ rest, v ∉ done ++ [u] := by
  rw [hsplit] at hnodup
  obtain ⟨hdone, hbehind, hapart⟩ := List.nodup_append.mp hnodup
  refine ⟨hdone, fun hu => hapart u hu u List.mem_cons_self rfl, fun v hv hmem => ?_⟩
  rcases List.mem_append.mp hmem with hmem | hmem
  · exact hapart v hmem v (List.mem_cons_of_mem _ hv) rfl
  · rw [List.mem_singleton.mp hmem] at hv
    exact (List.nodup_cons.mp hbehind).1 hv

theorem Resolved.not_isDue_of_report {extract : Extractor} (hresolved : Resolved extract fs plan)
    (hunits : units ⊆ plan.order) (hv : v ∈ plan.order)
    (hreport : (v.name, UnitAction.upToDate) ∈ units.map (BuildUnit.report force now)) :
    v.isDue force now = false := by
  obtain ⟨w, hw, hsaid⟩ := List.mem_map.mp hreport
  obtain ⟨hname, haction⟩ := Prod.mk.inj hsaid
  have hwv : w = v := hresolved.linked.eq_of_name ((hresolved.mem_order w).mp (hunits hw))
    ((hresolved.mem_order v).mp hv) hname
  rw [← hwv]
  refine eq_false_of_ne_true fun hdue => ?_
  rw [if_pos hdue] at haction
  cases haction

/-- A unit sees its files as they were before the units in front of it were compiled, and when it
was compiled as well, only what is made of these units has changed. -/
theorem changedWithin_through (hlaid : plan.LaidOut names) (hsep : plan.Separate)
    (hconfined : help.toolchain.Confined) (force : Bool) {done rest : List BuildUnit}
    (hsplit : plan.order = done ++ u :: rest) (hnodup : plan.order.Nodup)
    (hflat : fs.FlatAt (Path.rooted names) base) :
    let now := (plan.phase .compile (BuildUnit.compile help force) done fs).files
    u.SameFiles fs now ∧ ChangedWithin base (made ((done ++ [u]).filter fun v => v.isDue force fs))
      fs (u.compile help force now).files := by
  intro now
  have hu : u ∈ plan.order := by simp [hsplit]
  have hfront : done ⊆ plan.order := fun v hv => by simp [hsplit, hv]
  obtain ⟨honce, hnot, -⟩ := once_of_split hsplit hnodup
  have hdone : ChangedWithin base (made (done.filter fun v => v.isDue force fs)) fs now :=
    phase_changedWithin hlaid hsep hconfined force hfront honce hflat (SameFiles.refl_of_mem fs)
  have hsame : u.SameFiles fs now := sameFiles_of_made hlaid hsep hflat
    (fun v hv => hfront (List.mem_of_mem_filter hv)) hdone hu
    fun hmem => hnot (List.mem_of_mem_filter hmem)
  have hlast := (hlaid.units u hu).compile_made hlaid.ordinary (hflat.of_sameShape hdone.shape)
    hconfined force
  have hdue : ([u].filter fun v => v.isDue force now) = [u].filter fun v => v.isDue force fs := by
    rw [List.filter_singleton, List.filter_singleton, hsame.isDue]
  rw [hdue] at hlast
  refine ⟨hsame, ?_⟩
  rw [List.filter_append]
  exact (hdone.mono (made_mono (List.subset_append_left _ _))).trans
    (hlast.mono (made_mono (List.subset_append_right _ _)))

/-- A compile phase that fails has completed the units in front of the failed one. It leaves the
units behind that one alone, the units that it recorded as up to date, and all sources; the failed
unit too if it failed before the compiler, which was then not called for it. Only programs and
artifacts change of those units up to the failed one that were due, and with them an output only if
it is one of these files. -/
theorem failed_compile_leaves {extract : Extractor} {found : FileSystem} {path : Path}
    {f : BuildFailure} (hplan : (resolveWith extract found path).2 = .ok plan)
    (hfound : found.WellKept) (hsep : plan.Separate) (hflat : fs.FlatAt plan.directory base)
    (hconfined : help.toolchain.Confined) (hf : (plan.compile help force fs).outcome = .error f) :
    let r := plan.compile help force fs
    ∃ done u rest, plan.order = done ++ u :: rest ∧ f.unit = some u.name ∧
      f.completed.map UnitRecord.name = done.map BuildUnit.name ∧
      (∀ v ∈ rest, v.SameFiles fs r.files) ∧
      (∀ v ∈ done, (v.name, UnitAction.upToDate) ∈
        f.completed.map (fun record => (record.name, record.action)) → v.SameFiles fs r.files) ∧
      (∀ v ∈ plan.order, SameView fs r.files v.source) ∧
      (f.error.ofCompiler = false →
        u.SameFiles fs r.files ∧ (u.program, u.artifact) ∉ compiled r.events) ∧
      let written := made ((done ++ [u]).filter fun v => v.isDue force fs)
      ChangedWithin base written fs r.files ∧
        ∀ v ∈ plan.order, v.output ∉ written → SameView fs r.files v.output := by
  obtain ⟨names, hlaid⟩ := laidOut_of_resolveWith hplan hfound hsep.named
  have hresolved := resolved_of_resolveWith hplan
  rw [hlaid.directory] at hflat
  obtain ⟨done, u, rest, completed, e, hsplit, hdone, hstop, hfiles, rfl⟩ := phase_stops hf
  have hnodup : plan.order.Nodup := hresolved.nodup.of_map
  obtain ⟨honce, hnot, hbehind⟩ := once_of_split hsplit hnodup
  have hu : u ∈ plan.order := by simp [hsplit]
  have hfront : done ⊆ plan.order := fun v hv => by simp [hsplit, hv]
  obtain ⟨hsame, hmade⟩ := changedWithin_through hlaid hsep hconfined force hsplit hnodup hflat
  have htold := told_phase hlaid hsep hconfined force hfront honce hflat (SameFiles.refl_of_mem fs)
  intro r
  change r.files = _ at hfiles
  rw [← hfiles] at hmade
  have hwritten : ∀ v ∈ (done ++ [u]).filter (fun v => v.isDue force fs), v ∈ plan.order := by
    intro v hv
    rcases List.mem_append.mp (List.mem_of_mem_filter hv) with hv | hv
    · exact hfront hv
    · exact List.mem_singleton.mp hv ▸ hu
  have hothers : ∀ v ∈ plan.order, v ∉ (done ++ [u]).filter (fun v => v.isDue force fs) →
      v.SameFiles fs r.files :=
    fun v hv hnot => sameFiles_of_made hlaid hsep hflat hwritten hmade hv hnot
  refine ⟨done, u, rest, hsplit, (namesUnit_compile help force).error u _ e hstop, ?_, ?_, ?_, ?_,
    ?_, hmade, ?_⟩
  · rw [BuildFailure.completed_after_atUnit]
    exact map_phase (namesUnit_compile help force).record hdone
  · intro v hv
    exact hothers v (by simp [hsplit, hv]) fun hmem => hbehind v hv (List.mem_of_mem_filter hmem)
  · -- a unit that is recorded as up to date was not due, so that nothing was made of it
    intro v hv hrecorded
    rw [BuildFailure.completed_after_atUnit, (htold.ok completed hdone).1] at hrecorded
    have hdue := hresolved.not_isDue_of_report hfront (hfront hv) hrecorded
    refine hothers v (hfront hv) fun hmem => ?_
    exact Bool.false_ne_true (hdue.symm.trans (List.mem_filter.mp hmem).2)
  · intro v hv
    exact hmade.sameView hflat hlaid.ordinary (hlaid.made_isEntry hwritten)
      (hlaid.units v hv).source_isEntry (hsep.source_not_made hlaid hwritten hv)
  · intro hbefore
    obtain ⟨hkept, hnone⟩ := compile_stopped hstop hbefore
    have hevents : r.events = _ := hsplit ▸ events_of_stop hdone hstop rest
    rw [hfiles, hkept, hevents, compiled_append, hnone, List.append_nil]
    refine ⟨hsame, fun hcall => ?_⟩
    obtain ⟨v, hv, heq⟩ := htold.own _ hcall
    have hne : u ≠ v := fun huv => hnot (huv ▸ hv)
    exact hsep.calls_apart hu (hfront hv) hne heq
  · intro v hv hnot
    exact hmade.sameView hflat hlaid.ordinary (hlaid.made_isEntry hwritten)
      ((hlaid.units v hv).sibling_isEntry (by decide)) hnot

end

/-! ### An output that is an artifact -/

namespace Sample

/-- The first unit is named after the output of the last one, and the one between them is no
query. -/
def shadowed : FileSystem where
  entries := [
    ([FileName.ofText "w"], .directory 0),
    ([FileName.ofText "w", FileName.ofText "a.csv"], .file "id\n0\n".toUTF8 0 false),
    ([FileName.ofText "w", FileName.ofText "a.csv.sql"], .file "SELECT 2".toUTF8 1 false),
    ([FileName.ofText "w", FileName.ofText "a.d.sql"], .file "SELEC".toUTF8 1 false),
    ([FileName.ofText "w", FileName.ofText "a.sql"], .file "SELECT 1".toUTF8 1 false)]
  workingDirectory := []
  now := 2

def shadow : BuildUnit :=
  ⟨"a.csv", ⟨"/w/a.csv.sql"⟩, ⟨"/w/a.csv"⟩⟩

def broken : BuildUnit :=
  ⟨"a.d", ⟨"/w/a.d.sql"⟩, ⟨"/w/a.d"⟩⟩

def trio : BuildPlan :=
  ⟨⟨⟨"/w"⟩, [shadow, broken, first], Graph.ofEdges ["a.csv", "a.d", "a"] []⟩,
    [shadow, broken, first]⟩

/-- One text is no query, and every artifact is the same. -/
def writing : Collaborators where
  validator sql := if sql = "SELEC" then .error "no query" else .ok ()
  toolchain _ artifact fs :=
    match fs.write artifact "artifact".toUTF8 with
    | .error e => .refused fs e
    | .ok files => ⟨.ok .succeeded, files, .empty⟩
  executor _ fs := .refused fs .notFound

theorem find_shadow : shadowed.find ⟨"/w/a.csv.sql"⟩ =
    .ok ([FileName.ofText "w", FileName.ofText "a.csv.sql"],
      .file "SELECT 2".toUTF8 1 false) :=
  find_of_walk ["w", "a.csv.sql"] (by decide) (by decide) (by cbv)

theorem find_broken : shadowed.find ⟨"/w/a.d.sql"⟩ =
    .ok ([FileName.ofText "w", FileName.ofText "a.d.sql"], .file "SELEC".toUTF8 1 false) :=
  find_of_walk ["w", "a.d.sql"] (by decide) (by decide) (by cbv)

theorem find_shadowed : shadowed.find ⟨"/w/a.sql"⟩ =
    .ok ([FileName.ofText "w", FileName.ofText "a.sql"], .file "SELECT 1".toUTF8 1 false) :=
  find_of_walk ["w", "a.sql"] (by decide) (by decide) (by cbv)

theorem find_csv : shadowed.find ⟨"/w/a.csv"⟩ =
    .ok ([FileName.ofText "w", FileName.ofText "a.csv"], .file "id\n0\n".toUTF8 0 false) :=
  find_of_walk ["w", "a.csv"] (by decide) (by decide) (by cbv)

theorem resolve_shadowed : (resolveWith Reference.names shadowed ⟨"/w"⟩).2 = .ok trio := by
  have hcanonical : shadowed.canonicalize ⟨"/w"⟩ = .ok [FileName.ofText "w"] := by cbv
  have hpath : Location.path [FileName.ofText "w"] = ⟨"/w"⟩ := by cbv
  have hscan : UnitGraph.scan ⟨"/w"⟩ [] (UnitGraph.fileNames shadowed [FileName.ofText "w"]) =
      ⟨[shadow, broken, first], [], none⟩ := by cbv
  have hshadow : shadow.sourceText shadowed = .ok "SELECT 2" := readText_of_find find_shadow
  have hbroken : broken.sourceText shadowed = .ok "SELEC" := readText_of_find find_broken
  have hfirst : first.sourceText shadowed = .ok "SELECT 1" := readText_of_find find_shadowed
  have hnone : Reference.names "SELECT 2" = [] ∧ Reference.names "SELEC" = [] ∧
      Reference.names "SELECT 1" = [] := by
    refine ⟨?_, ?_, ?_⟩ <;> cbv
  have hlink : UnitGraph.linkAll Reference.names shadowed (Graph.ofEdges ["a.csv", "a.d", "a"] [])
      [shadow, broken, first] = .ok trio.discovered.graph := by
    simp only [UnitGraph.linkAll, hshadow, hbroken, hfirst, UnitGraph.link, hnone]
    rfl
  have horder : trio.discovered.graph.resolveOrder = .ok ["a.csv", "a.d", "a"] := by cbv
  have hplan := resolveWith_eq_ok hcanonical (hpath.symm ▸ hscan) (by simp) hlink horder
  rwa [hpath] at hplan

theorem wellKept_shadowed : shadowed.WellKept :=
  .of_listing "w" ["a.csv", "a.csv.sql", "a.d.sql", "a.sql"] rfl (by cbv) rfl (by decide)

theorem flatAt_shadowed : shadowed.FlatAt ⟨"/w"⟩ [FileName.ofText "w"] := by
  refine ⟨⟨0, by cbv⟩, fun name target hlink => ?_⟩
  have hmem := mem_entries_of_get? (by simp) hlink
  simp [shadowed] at hmem

theorem separate_trio : trio.Separate where
  named u hu := by
    simp only [trio, List.mem_cons, List.not_mem_nil, or_false] at hu
    rcases hu with rfl | rfl | rfl <;> decide
  apart u hu v hv hne := by
    simp only [trio, List.mem_cons, List.not_mem_nil, or_false] at hu hv
    rcases hu with rfl | rfl | rfl <;> rcases hv with rfl | rfl | rfl <;>
      first | exact absurd rfl hne | decide

theorem confined_writing : writing.toolchain.Confined where
  shape program artifact fs := by
    cases hw : fs.write artifact "artifact".toUTF8 with
    | error e =>
      simp only [writing, hw]
      exact SameShape.refl fs
    | ok files =>
      simp only [writing, hw]
      exact (write_spec hw).1.shape
  kept program artifact fs other hother := by
    cases hw : fs.write artifact "artifact".toUTF8 with
    | error e =>
      simp only [writing, hw]
      rfl
    | ok files =>
      simp only [writing, hw]
      exact (write_spec hw).1.kept other hother

theorem write_shadow (program : ByteArray) :
    ∃ written, shadowed.write ⟨"/w/a.csv.cpp"⟩ program = .ok written := by
  have hnone : shadowed.resolve true ⟨"/w/a.csv.cpp"⟩ =
      .ok ⟨[FileName.ofText "w", FileName.ofText "a.csv.cpp"], none⟩ :=
    resolve_of_walk ["w", "a.csv.cpp"] (by decide) (by decide) (by cbv)
  exact ⟨_, write_missing hnone (by decide) program⟩

/-- The artifact is written where the output was, since the program is written elsewhere. -/
theorem write_csv {program : ByteArray} {written : FileSystem}
    (hw : shadowed.write ⟨"/w/a.csv.cpp"⟩ program = .ok written) :
    ∃ files, written.write ⟨"/w/a.csv"⟩ "artifact".toUTF8 = .ok files := by
  obtain ⟨names, hlaid⟩ :=
    laidOut_of_resolveWith resolve_shadowed wellKept_shadowed separate_trio.named
  have hflat : shadowed.FlatAt (Path.rooted names) [FileName.ofText "w"] :=
    hlaid.directory ▸ flatAt_shadowed
  have hlies := hlaid.units shadow (by simp [trio])
  have hprogram : shadow.program = ⟨"/w/a.csv.cpp"⟩ := by decide
  rw [← hprogram] at hw
  have hapart : shadow.artifact ∉ [shadow.program] := by
    rw [List.mem_singleton]
    exact (hlies.program_ne_artifact hlaid.ordinary).symm
  have hview : SameView shadowed written ⟨"/w/a.csv"⟩ :=
    (hflat.write hlaid.ordinary hlies.program_isEntry hw).1.changedWithin.sameView hflat
      hlaid.ordinary (by simpa using hlies.program_isEntry) hlies.artifact_isEntry hapart
  cases hfiles : written.write ⟨"/w/a.csv"⟩ "artifact".toUTF8 with
  | ok files => exact ⟨files, rfl⟩
  | error e =>
    have hbefore := (hview.write_error _ e).mp hfiles
    rw [write, find_eq_ok.mp find_csv] at hbefore
    cases hbefore

theorem compile_shadow : ∃ record,
    (shadow.compile writing false shadowed).result = .ok record ∧
      (shadow.compile writing false shadowed).files.read ⟨"/w/a.csv"⟩ =
        .ok "artifact".toUTF8 := by
  have hstale : Staleness.ofUnit shadowed shadow = .ok .outOfDate := by
    simp only [Staleness.ofUnit, Staleness.check, modified, shadow, find_csv, find_shadow]
    rfl
  have htext : shadow.sourceText shadowed = .ok "SELECT 2" := readText_of_find find_shadow
  have hvalid : writing.validator "SELECT 2" = .ok () := by decide
  have hpath : (Program.render shadow "SELECT 2").path = ⟨"/w/a.csv.cpp"⟩ := by decide
  obtain ⟨written, hwritten⟩ := write_shadow (Program.render shadow "SELECT 2").source.toUTF8
  obtain ⟨files, hfiles⟩ := write_csv hwritten
  obtain ⟨-, location, executable, hfind⟩ := write_spec hfiles
  have hcall : writing.toolchain ⟨"/w/a.csv.cpp"⟩ shadow.artifact written =
      ⟨.ok .succeeded, files, .empty⟩ := by
    have hartifact : shadow.artifact = ⟨"/w/a.csv"⟩ := rfl
    simp only [writing, hartifact, hfiles]
  have hbuild : (shadow.build writing shadowed).result = .ok () ∧
      (shadow.build writing shadowed).files = files := by
    simp only [BuildUnit.build, produce, check, htext, hvalid, Step.andThen, place, hpath,
      writeText, hwritten, callCompiler, hcall, and_true]
    rfl
  simp only [BuildUnit.compile, hstale, hbuild]
  exact ⟨_, rfl, read_eq_ok.mpr ⟨location, _, executable, hfind⟩⟩

theorem sameFiles_broken :
    broken.SameFiles shadowed (shadow.compile writing false shadowed).files := by
  obtain ⟨names, hlaid⟩ :=
    laidOut_of_resolveWith resolve_shadowed wellKept_shadowed separate_trio.named
  have hflat : shadowed.FlatAt (Path.rooted names) [FileName.ofText "w"] :=
    hlaid.directory ▸ flatAt_shadowed
  have hsplit : trio.order = [shadow] ++ broken :: [first] := rfl
  obtain ⟨record, hrecord, -⟩ := compile_shadow
  obtain ⟨hsame, -⟩ := changedWithin_through hlaid separate_trio confined_writing false hsplit
    (by decide) hflat
  rwa [phase_cons_ok hrecord] at hsame

/-- As long as its files look as they did, the unit in the middle is no query. -/
theorem compile_broken {now : FileSystem} (hsame : broken.SameFiles shadowed now) :
    (broken.compile writing false now).result =
      .error (.invalid "a.d" ⟨"no query", some ⟨"/w/a.d.sql"⟩⟩) := by
  have hstale : Staleness.ofUnit shadowed broken = .ok .missing := by
    have hnone : shadowed.resolve true ⟨"/w/a.d"⟩ =
        .ok ⟨[FileName.ofText "w", FileName.ofText "a.d"], none⟩ :=
      resolve_of_walk ["w", "a.d"] (by decide) (by decide) (by cbv)
    simp only [Staleness.ofUnit, Staleness.check, modified, find, broken, hnone]
    rfl
  have htext : broken.sourceText shadowed = .ok "SELEC" := readText_of_find find_broken
  have hinvalid : writing.validator "SELEC" = .error "no query" := by decide
  rw [← hsame.staleness] at hstale
  rw [← hsame.sourceText] at htext
  simp only [BuildUnit.compile, hstale, BuildUnit.build, produce, check, htext, hinvalid,
    Step.andThen]
  rfl

/-- The phase makes the first artifact and stops at the unit behind it. -/
theorem compile_trio : ∃ f, (trio.compile writing false shadowed).outcome = .error f ∧
    f.unit = some "a.d" ∧ f.error.ofCompiler = false ∧
      (trio.compile writing false shadowed).files.read ⟨"/w/a.csv"⟩ = .ok "artifact".toUTF8 := by
  obtain ⟨record, hrecord, hread⟩ := compile_shadow
  have hbroken := compile_broken sameFiles_broken
  obtain ⟨hkept, -⟩ := compile_stopped hbroken rfl
  rw [compile, trio, phase_cons_ok hrecord, phase_cons_error hbroken]
  refine ⟨_, rfl, rfl, rfl, ?_⟩
  rw [BuildResult.after, hkept]
  exact hread

end Sample

/-- A phase that stops at the second unit leaves that unit and the one behind it alone. -/
theorem trio_leaves : ∃ f, (Sample.trio.compile Sample.writing false Sample.shadowed).outcome =
    .error f ∧ f.unit = some "a.d" ∧
      Sample.broken.SameFiles Sample.shadowed
        (Sample.trio.compile Sample.writing false Sample.shadowed).files ∧
      Sample.first.SameFiles Sample.shadowed
        (Sample.trio.compile Sample.writing false Sample.shadowed).files := by
  obtain ⟨f, hf, hunit, hbefore, -⟩ := Sample.compile_trio
  obtain ⟨done, u, rest, hsplit, hfailed, -, hrest, -, -, hstopped, -⟩ :=
    failed_compile_leaves Sample.resolve_shadowed Sample.wellKept_shadowed Sample.separate_trio
      Sample.flatAt_shadowed Sample.confined_writing hf
  have hname : u.name = "a.d" := Option.some.inj (hfailed.symm.trans hunit)
  have horder : [Sample.shadow, Sample.broken, Sample.first] = done ++ u :: rest := hsplit
  rcases done with _ | ⟨d, _ | ⟨d', _ | ⟨d'', back⟩⟩⟩
  · cases horder
    exact absurd hname (by decide)
  · cases horder
    exact ⟨f, hf, hunit, (hstopped hbefore).1, hrest _ List.mem_cons_self⟩
  · cases horder
    exact absurd hname (by decide)
  · simp at horder

/-- Meanwhile the output of the last unit was overwritten by the artifact of the first one, although
all units are separate. -/
theorem output_overwritten :
    (resolveWith Reference.names Sample.shadowed ⟨"/w"⟩).2 = .ok Sample.trio ∧
      Sample.trio.Separate ∧ Sample.shadowed.FlatAt ⟨"/w"⟩ [FileName.ofText "w"] ∧
      Sample.writing.toolchain.Confined ∧
      Sample.trio.order = [Sample.shadow, Sample.broken, Sample.first] ∧
      ∃ f, (Sample.trio.compile Sample.writing false Sample.shadowed).outcome = .error f ∧
        f.unit = some Sample.broken.name ∧
        Sample.shadowed.read Sample.first.output = .ok "id\n0\n".toUTF8 ∧
        (Sample.trio.compile Sample.writing false Sample.shadowed).files.read Sample.first.output =
          .ok "artifact".toUTF8 := by
  obtain ⟨f, hf, hunit, -, hread⟩ := Sample.compile_trio
  have houtput : Sample.first.output = ⟨"/w/a.csv"⟩ := by decide
  rw [houtput]
  exact ⟨Sample.resolve_shadowed, Sample.separate_trio, Sample.flatAt_shadowed,
    Sample.confined_writing, rfl, f, hf, hunit, read_eq_ok.mpr ⟨_, _, _, Sample.find_csv⟩, hread⟩

end BuildPlan

end QueryBuild

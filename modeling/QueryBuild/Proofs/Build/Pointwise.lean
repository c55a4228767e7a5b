import QueryBuild.Proofs.Build.Success
/-!
# What a compile phase does, told from the files before it

A compile phase looks at the artifact and the source of a unit when it comes to that unit, after it
has compiled others. What it sees is what there was before the phase, since no unit touches the
files of another one. So the files before the phase tell which units are compiled and, together with
how the calls of the compiler end, where the phase stops.
-/

namespace QueryBuild

open FileSystem

/-- The programs and artifacts with which the compiler was called, in the order of the calls. -/
def Event.compiled (events : List Event) : List (Path × Path) :=
  events.filterMap fun
    | .called (.compiler program artifact) _ _ => some (program, artifact)
    | _ => none

namespace Event

theorem compiled_append (before after : List Event) :
    compiled (before ++ after) = compiled before ++ compiled after :=
  List.filterMap_append

theorem mem_compiled {events : List Event} {program artifact : Path}
    {result : Except IoError ProcessOutput} {output : ByteArray}
    (h : .called (.compiler program artifact) result output ∈ events) :
    (program, artifact) ∈ compiled events :=
  List.mem_filterMap.mpr ⟨_, h, rfl⟩

end Event

open Event

namespace BuildUnit

/-- Whether a unit is compiled: always by force, and otherwise if it has no artifact or one that is
not newer than its source. -/
def isDue (force : Bool) (fs : FileSystem) (u : BuildUnit) : Bool :=
  force || match fs.modified u.artifact, fs.modified u.source with
    | .error .notFound, _ => true
    | .ok built, .ok edited => !decide (edited < built)
    | _, _ => false

/-- What the record of a compiled unit says: the name, and whether it was compiled. -/
def report (force : Bool) (fs : FileSystem) (u : BuildUnit) : String × UnitAction :=
  (u.name, if u.isDue force fs then .compiled else .upToDate)

/-- What keeps a unit from being compiled, in terms of some files and of the calls that were
made. -/
inductive Flawed (help : Collaborators) (force : Bool) (fs : FileSystem) (events : List Event)
    (u : BuildUnit) : Prop
  | unclear {e : IoError} (unclear : Staleness.ofUnit fs u = .error e)
  | unreadable {e : IoError} (due : u.isDue force fs = true)
      (unreadable : u.sourceText fs = .error e)
  | invalid {sql reason : String} (due : u.isDue force fs = true)
      (read : u.sourceText fs = .ok sql) (invalid : help.validator sql = .error reason)
  | unwritten {sql : String} {e : IoError} (due : u.isDue force fs = true)
      (read : u.sourceText fs = .ok sql) (valid : help.validator sql = .ok ())
      (unwritten : fs.writeText u.program (Program.render u sql).source = .error e)
  | uncompiled {result : Except IoError ProcessOutput} {output : ByteArray}
      (due : u.isDue force fs = true)
      (called : .called (.compiler u.program u.artifact) result output ∈ events)
      (failed : ∀ ended, result = .ok ended → ended.success = false)

section

variable {help : Collaborators} {force : Bool} {fs now : FileSystem} {u : BuildUnit}

theorem isDue_of_staleness {staleness : Staleness} (h : Staleness.ofUnit fs u = .ok staleness) :
    u.isDue force fs = (force || staleness.needsRebuild) := by
  rw [Staleness.ofUnit, Staleness.check] at h
  rw [isDue]
  split at h
  · rename_i e hmissing
    split at h
    · rename_i hnotFound
      cases h
      rw [hmissing, beq_iff_eq.mp hnotFound]
      rfl
    · cases h
  · rename_i built hbuilt
    obtain ⟨edited, hedited, rfl⟩ := ok_of_map h
    rw [hbuilt, hedited, Staleness.compare]
    dsimp only
    split
    · rename_i hnewer
      rw [decide_eq_true hnewer]
      rfl
    · rename_i hnot
      rw [decide_eq_false hnot]
      rfl

theorem Flawed.of_calls {events events' : List Event} (h : u.Flawed help force fs events)
    (hcalls : ∀ result output, .called (.compiler u.program u.artifact) result output ∈ events →
      .called (.compiler u.program u.artifact) result output ∈ events') :
    u.Flawed help force fs events' := by
  cases h with
  | unclear unclear => exact .unclear unclear
  | unreadable due unreadable => exact .unreadable due unreadable
  | invalid due read invalid => exact .invalid due read invalid
  | unwritten due read valid unwritten => exact .unwritten due read valid unwritten
  | uncompiled due called failed => exact .uncompiled due (hcalls _ _ called) failed

theorem flawed_append_left {front behind : List Event}
    (hbehind : (u.program, u.artifact) ∉ Event.compiled behind) :
    u.Flawed help force fs (front ++ behind) ↔ u.Flawed help force fs front := by
  constructor
  · intro hflawed
    refine hflawed.of_calls fun result output hmem => ?_
    exact (List.mem_append.mp hmem).resolve_right fun hcalled => hbehind (mem_compiled hcalled)
  · intro hflawed
    exact hflawed.of_calls fun result output hmem => List.mem_append_left _ hmem

theorem flawed_append_right {front behind : List Event}
    (hfront : (u.program, u.artifact) ∉ Event.compiled front) :
    u.Flawed help force fs (front ++ behind) ↔ u.Flawed help force fs behind := by
  constructor
  · intro hflawed
    refine hflawed.of_calls fun result output hmem => ?_
    exact (List.mem_append.mp hmem).resolve_left fun hcalled => hfront (mem_compiled hcalled)
  · intro hflawed
    exact hflawed.of_calls fun result output hmem => List.mem_append_right _ hmem

/-! ### One unit -/

theorem SameFiles.isDue (h : u.SameFiles fs now) : u.isDue force now = u.isDue force fs := by
  rw [BuildUnit.isDue, h.artifact.modified, h.source.modified]
  rfl

/-- What compiling a unit leads to, told from files that look the same. -/
inductive Compiled (help : Collaborators) (force : Bool) (fs : FileSystem) (u : BuildUnit) :
    Step UnitRecord → Prop
  | kept {record : UnitRecord} {files : FileSystem} (due : u.isDue force fs = false)
      (sound : ¬ u.Flawed help force fs []) (named : record.name = u.name)
      (action : record.action = .upToDate) :
      Compiled help force fs u ⟨.ok record, files, []⟩
  | built {record : UnitRecord} {files : FileSystem} {sql : String} {ended : ProcessOutput}
      {output : ByteArray} (due : u.isDue force fs = true)
      (sound : ¬ u.Flawed help force fs [.started .compile u.name,
        .called (.validator u.name sql) (.ok ()) .empty,
        .called (.compiler u.program u.artifact) (.ok ended) output])
      (named : record.name = u.name) (action : record.action = .compiled) :
      Compiled help force fs u ⟨.ok record, files, [.started .compile u.name,
        .called (.validator u.name sql) (.ok ()) .empty,
        .called (.compiler u.program u.artifact) (.ok ended) output]⟩
  | failed {e : BuildError} {files : FileSystem} {events : List Event}
      (flawed : u.Flawed help force fs events)
      (own : compiled events ⊆ [(u.program, u.artifact)]) :
      Compiled help force fs u ⟨.error e, files, events⟩

theorem not_flawed {staleness : Staleness} {events : List Event}
    (hstale : Staleness.ofUnit fs u = .ok staleness)
    (hgenerated : u.isDue force fs = true → ∃ sql, u.sourceText fs = .ok sql ∧
      help.validator sql = .ok () ∧
      ∀ e, fs.writeText u.program (Program.render u sql).source ≠ .error e)
    (hcalls : ∀ result output, .called (.compiler u.program u.artifact) result output ∈ events →
      ∃ ended, result = .ok ended ∧ ended.success = true) :
    ¬ u.Flawed help force fs events := by
  intro hflawed
  cases hflawed with
  | unclear unclear => cases hstale.symm.trans unclear
  | unreadable due unreadable =>
    obtain ⟨sql, hread, -⟩ := hgenerated due
    cases hread.symm.trans unreadable
  | invalid due read invalid =>
    obtain ⟨sql, hread, hvalid, -⟩ := hgenerated due
    cases hread.symm.trans read
    cases hvalid.symm.trans invalid
  | unwritten due read valid unwritten =>
    obtain ⟨sql, hread, -, hwritten⟩ := hgenerated due
    cases hread.symm.trans read
    exact hwritten _ unwritten
  | uncompiled due called failed =>
    obtain ⟨ended, hended, hwell⟩ := hcalls _ _ called
    rw [failed ended hended] at hwell
    cases hwell

/-- A unit that is due, and whose program can be written, is compiled if the compiler ends well. -/
theorem compiled_of_call {staleness : Staleness} {sql : String}
    (hstale : Staleness.ofUnit fs u = .ok staleness) (hdue : u.isDue force fs = true)
    (hread : u.sourceText fs = .ok sql) (hvalid : help.validator sql = .ok ())
    (hwritten : ∀ e, fs.writeText u.program (Program.render u sql).source ≠ .error e)
    (reaction : Reaction) :
    Compiled help force fs u
      ⟨(judge "compiler could not be started: " (.notCompiled u.name) reaction.result).map
          fun _ => .ofUnit reaction.files u .compiled,
        reaction.files,
        [.started .compile u.name, .called (.validator u.name sql) (.ok ()) .empty,
          .called (.compiler u.program u.artifact) reaction.result reaction.output]⟩ := by
  obtain ⟨result, files, output⟩ := reaction
  have hcall : Event.called (.compiler u.program u.artifact) result output ∈
      [Event.started .compile u.name, .called (.validator u.name sql) (.ok ()) .empty,
        .called (.compiler u.program u.artifact) result output] := by
    simp
  dsimp only
  cases result with
  | error cause =>
    refine .failed (.uncompiled hdue hcall fun ended hended => ?_) (List.Subset.refl _)
    cases hended
  | ok ended =>
    rw [judge]
    split
    · rename_i hwell
      refine .built hdue (not_flawed hstale (fun _ => ⟨sql, hread, hvalid, hwritten⟩) ?_) rfl rfl
      intro result output hmem
      rcases List.mem_cons.mp hmem with hstarted | hmem
      · cases hstarted
      rcases List.mem_cons.mp hmem with hasked | hmem
      · cases hasked
      · cases List.mem_singleton.mp hmem
        exact ⟨ended, rfl, hwell⟩
    · rename_i hill
      refine .failed (.uncompiled hdue hcall fun other hother => ?_) (List.Subset.refl _)
      cases hother
      simpa using hill

/-- A unit whose program is not produced is flawed. -/
theorem SameFiles.flawed (h : u.SameFiles fs now) (hdue : u.isDue force fs = true) {e : BuildError}
    {events : List Event} (hproduced : Produced help.validator u now ⟨.error e, now, events⟩) :
    u.Flawed help force fs (.started .compile u.name :: events) ∧
      compiled (.started .compile u.name :: events) = [] := by
  cases hproduced with
  | unread read => exact ⟨.unreadable hdue (h.sourceText ▸ read), rfl⟩
  | refused read verdict => exact ⟨.invalid hdue (h.sourceText ▸ read) verdict, rfl⟩
  | unwritten read verdict written =>
    exact ⟨.unwritten hdue (h.sourceText ▸ read) verdict ((h.program.write_error _ _).mp written),
      rfl⟩

/-- To compile a unit does what the files tell that look the same. -/
theorem SameFiles.compiled (h : u.SameFiles fs now) (help : Collaborators) (force : Bool) :
    Compiled help force fs u (u.compile help force now) := by
  rw [compile]
  cases hstale : Staleness.ofUnit now u with
  | error e => exact .failed (.unclear (h.staleness.symm.trans hstale)) (by simp [Event.compiled])
  | ok staleness =>
    rw [h.staleness] at hstale
    have hdue : u.isDue force fs = (force || staleness.needsRebuild) := isDue_of_staleness hstale
    dsimp only
    split
    · rename_i hkeep
      have hnotDue : u.isDue force fs = false := by
        rw [hdue]
        simpa using hkeep
      refine .kept hnotDue (not_flawed hstale ?_ (by simp)) rfl rfl
      intro due
      rw [hnotDue] at due
      cases due
    · rename_i hbuild
      have hdue : u.isDue force fs = true := by
        rw [hdue]
        cases force
        · simpa using hbuild
        · rfl
      rcases build_cases help u now with
        ⟨e, events, hproduced, hfailed⟩ | ⟨sql, written, hread, hvalid, hwrite, hcalled⟩
      · obtain ⟨hflawed, hnone⟩ := h.flawed hdue hproduced
        rw [hfailed]
        refine .failed hflawed ?_
        rw [hnone]
        exact List.nil_subset _
      · rw [h.sourceText] at hread
        rw [hcalled]
        refine compiled_of_call hstale hdue hread hvalid (fun e hw => ?_) _
        cases hwrite.symm.trans ((h.program.write_error _ _).mpr hw)

theorem Compiled.ok {step : Step UnitRecord} (h : Compiled help force fs u step)
    {record : UnitRecord} (hok : step.result = .ok record) :
    (record.name, record.action) = u.report force fs ∧
      Event.compiled step.events = (if u.isDue force fs then [(u.program, u.artifact)] else []) ∧
      ¬ u.Flawed help force fs step.events := by
  cases h with
  | kept due sound named action =>
    cases hok
    rw [report, due, named, action]
    exact ⟨rfl, rfl, sound⟩
  | built due sound named action =>
    cases hok
    rw [report, due, named, action]
    exact ⟨rfl, rfl, sound⟩
  | failed flawed own => cases hok

theorem Compiled.error {step : Step UnitRecord} (h : Compiled help force fs u step)
    {e : BuildError} (he : step.result = .error e) :
    u.Flawed help force fs step.events ∧
      Event.compiled step.events ⊆ [(u.program, u.artifact)] := by
  cases h with
  | kept due sound named action => cases he
  | built due sound named action => cases he
  | failed flawed own => exact ⟨flawed, own⟩

end

end BuildUnit

namespace BuildPlan

section

variable {names : List String} {base : Location} {plan : BuildPlan} {help : Collaborators}
  {force : Bool} {fs now : FileSystem} {u v : BuildUnit}

/-- What a compile phase on some units leads to, told from the files before it. -/
structure Told (help : Collaborators) (force : Bool) (fs : FileSystem) (units : List BuildUnit)
    (r : BuildResult) : Prop where
  own : ∀ call ∈ compiled r.events, ∃ u ∈ units, call = (u.program, u.artifact)
  ok : ∀ records, r.outcome = .ok records →
    records.map (fun record => (record.name, record.action)) =
        units.map (BuildUnit.report force fs) ∧
      compiled r.events =
        (units.filter (BuildUnit.isDue force fs)).map (fun u => (u.program, u.artifact)) ∧
      ∀ u ∈ units, ¬ u.Flawed help force fs r.events
  error : ∀ f, r.outcome = .error f → ∃ done u rest, units = done ++ u :: rest ∧
    f.unit = some u.name ∧ u.Flawed help force fs r.events ∧
    ∀ v ∈ done, ¬ v.Flawed help force fs r.events

theorem Separate.calls_apart (h : plan.Separate) (hu : u ∈ plan.order) (hv : v ∈ plan.order)
    (hne : u ≠ v) : (u.program, u.artifact) ≠ (v.program, v.artifact) := by
  intro heq
  have hartifact : u.artifact = v.artifact := (Prod.mk.inj heq).2
  exact h.artifact_untouched hu hv hne (by simp [hartifact])

theorem Told.after {units : List BuildUnit} {r : BuildResult} {record : UnitRecord}
    {events : List Event} (h : Told help force fs units r) (hsep : plan.Separate)
    (hu : u ∈ plan.order) (hunits : units ⊆ plan.order) (hnot : u ∉ units)
    (hreport : (record.name, record.action) = u.report force fs)
    (hcalled : compiled events = if u.isDue force fs then [(u.program, u.artifact)] else [])
    (hsound : ¬ u.Flawed help force fs events) :
    Told help force fs (u :: units)
      (r.after [record] (events ++ [.finished .compile record])) := by
  have hfront : compiled (events ++ [.finished .compile record]) =
      if u.isDue force fs then [(u.program, u.artifact)] else [] := by
    rw [compiled_append, hcalled]
    exact List.append_nil _
  have hall : compiled (r.after [record] (events ++ [.finished .compile record])).events =
      compiled (events ++ [.finished .compile record]) ++ compiled r.events :=
    compiled_append _ _
  have hfirst : ∀ call ∈ compiled (events ++ [.finished .compile record]),
      call = (u.program, u.artifact) := by
    intro call hcall
    rw [hfront] at hcall
    split at hcall
    · exact List.mem_singleton.mp hcall
    · cases hcall
  -- the calls for the first unit are in front, and those for the others behind
  have hsound : ¬ u.Flawed help force fs
      (r.after [record] (events ++ [.finished .compile record])).events := by
    have hothers : (u.program, u.artifact) ∉ compiled r.events := by
      intro hcall
      obtain ⟨v, hv, heq⟩ := h.own _ hcall
      exact hsep.calls_apart hu (hunits hv) (fun hsame => hnot (hsame ▸ hv)) heq
    intro hflawed
    have hfinished := (BuildUnit.flawed_append_left hothers).mp hflawed
    exact hsound ((BuildUnit.flawed_append_left List.not_mem_nil).mp hfinished)
  have hlater : ∀ v ∈ units,
      (v.Flawed help force fs (r.after [record] (events ++ [.finished .compile record])).events ↔
        v.Flawed help force fs r.events) := by
    intro v hv
    refine BuildUnit.flawed_append_right fun hcall => ?_
    exact hsep.calls_apart hu (hunits hv) (fun hsame => hnot (hsame ▸ hv)) (hfirst _ hcall).symm
  constructor
  · rw [hall]
    intro call hcall
    rcases List.mem_append.mp hcall with hcall | hcall
    · exact ⟨u, List.mem_cons_self, hfirst call hcall⟩
    · obtain ⟨v, hv, heq⟩ := h.own call hcall
      exact ⟨v, List.mem_cons_of_mem _ hv, heq⟩
  · intro records hok
    obtain ⟨later, hr, rfl⟩ := BuildResult.ok_of_after hok
    obtain ⟨hreports, hcalls, hnone⟩ := h.ok later hr
    refine ⟨?_, ?_, ?_⟩
    · rw [List.singleton_append, List.map_cons, List.map_cons, hreport, hreports]
    · rw [hall, hfront, hcalls, List.filter_cons]
      split
      · rfl
      · rfl
    · rw [List.forall_mem_cons]
      exact ⟨hsound, fun v hv => mt (hlater v hv).mp (hnone v hv)⟩
  · intro f hf
    obtain ⟨later, hr, rfl⟩ := BuildResult.error_of_after hf
    obtain ⟨done, v, rest, rfl, hunit, hflawed, hnone⟩ := h.error later hr
    refine ⟨u :: done, v, rest, rfl, hunit, (hlater v (by simp)).mpr hflawed, ?_⟩
    rw [List.forall_mem_cons]
    exact ⟨hsound, fun w hw => mt (hlater w (by simp [hw])).mp (hnone w hw)⟩

theorem told_phase (hlaid : plan.LaidOut names) (hsep : plan.Separate)
    (hconfined : help.toolchain.Confined) (force : Bool) {units : List BuildUnit}
    (hunits : units ⊆ plan.order) (hnodup : units.Nodup)
    (hflat : now.FlatAt (Path.rooted names) base)
    (hsame : ∀ u ∈ units, u.SameFiles fs now) :
    Told help force fs units (plan.phase .compile (BuildUnit.compile help force) units now) := by
  induction units generalizing now with
  | nil =>
    refine ⟨by simp [phase, Event.compiled], ?_, ?_⟩
    · intro records hok
      cases hok
      exact ⟨rfl, rfl, by simp⟩
    · intro f hf
      cases hf
  | cons u units ih =>
    have hu : u ∈ plan.order := hunits List.mem_cons_self
    have hrest : units ⊆ plan.order := fun v hv => hunits (List.mem_cons_of_mem _ hv)
    obtain ⟨hnot, hnodup⟩ := List.nodup_cons.mp hnodup
    have hstep := (hsame u List.mem_cons_self).compiled help force
    cases hresult : (u.compile help force now).result with
    | error e =>
      obtain ⟨hflawed, hown⟩ := hstep.error hresult
      rw [phase_cons_error hresult]
      refine ⟨fun call hcall => ⟨u, List.mem_cons_self, List.mem_singleton.mp (hown hcall)⟩, ?_, ?_⟩
      · intro records hok
        cases hok
      · intro f hf
        cases hf
        exact ⟨[], u, units, rfl, (BuildUnit.namesUnit_compile help force).error u now e hresult,
          hflawed, by simp⟩
    | ok record =>
      obtain ⟨hreport, hcalled, hsound⟩ := hstep.ok hresult
      have hchanged := (hlaid.units u hu).compile_changedWithin hlaid.ordinary hflat hconfined force
      have hlater := ih hrest hnodup (hflat.of_sameShape hchanged.shape) fun v hv =>
        (hsame v (List.mem_cons_of_mem _ hv)).trans (sameFiles_of_changedWithin hlaid hsep hflat hu
          hchanged (hrest hv) fun heq => hnot (heq ▸ hv))
      rw [phase_cons_ok hresult]
      exact hlater.after hsep hu hrest hnot hreport hcalled hsound

/-- A compile phase does what the files before it tell. If it succeeds, it compiles exactly the
units that are due, each of them by one call of the compiler and in build order. If it fails, it
fails at the first unit that cannot be compiled. -/
theorem compile_told {extract : Extractor} {found : FileSystem} {path : Path}
    (hplan : (resolveWith extract found path).2 = .ok plan) (hfound : found.WellKept)
    (hsep : plan.Separate) (hflat : ∃ base, fs.FlatAt plan.directory base)
    (hconfined : help.toolchain.Confined) :
    let r := plan.compile help force fs
    (∀ records, r.outcome = .ok records →
      records.map (fun record => (record.name, record.action)) =
          plan.order.map (fun u =>
            (u.name, if u.isDue force fs then UnitAction.compiled else UnitAction.upToDate)) ∧
        compiled r.events =
          (plan.order.filter fun u => u.isDue force fs).map (fun u => (u.program, u.artifact)) ∧
        ∀ u ∈ plan.order, ¬ u.Flawed help force fs r.events) ∧
    ∀ f, r.outcome = .error f → ∃ done u rest, plan.order = done ++ u :: rest ∧
      f.unit = some u.name ∧ u.Flawed help force fs r.events ∧
      ∀ v ∈ done, ¬ v.Flawed help force fs r.events := by
  obtain ⟨names, hlaid⟩ := laidOut_of_resolveWith hplan hfound hsep.named
  obtain ⟨base, hflat⟩ := hflat
  rw [hlaid.directory] at hflat
  have hnodup : plan.order.Nodup := (resolved_of_resolveWith hplan).nodup.of_map
  have htold := told_phase hlaid hsep hconfined force (List.Subset.refl _) hnodup hflat
    fun u _ => ⟨SameView.refl fs _, SameView.refl fs _, SameView.refl fs _⟩
  exact ⟨htold.ok, htold.error⟩

/-- Two units without artifacts are compiled, one call for each, and the third one, whose artifact
is newer than its source, is not. -/
theorem due_units_compiled : ∃ records,
    (Sample.triple.compile Sample.compiling false Sample.partly).outcome = .ok records ∧
      records.map (fun record => (record.name, record.action)) =
        [("a", .compiled), ("b", .compiled), ("c", .upToDate)] ∧
      compiled (Sample.triple.compile Sample.compiling false Sample.partly).events =
        [(⟨"/w/a.cpp"⟩, ⟨"/w/a"⟩), (⟨"/w/b.cpp"⟩, ⟨"/w/b"⟩)] := by
  have hconfined : Sample.compiling.toolchain.Confined :=
    (Toolchain.compiles_prompt String.toUTF8).confined
  obtain ⟨records, hok⟩ := compile_ready Sample.resolve_sources Sample.wellKept_sources
    Sample.separate_triple Sample.flatAt_partly hconfined
    (Toolchain.able_prompt String.toUTF8) false fun u hu => Sample.ready_partly hu
  obtain ⟨hreports, hcalls, -⟩ := (compile_told Sample.resolve_sources Sample.wellKept_sources
    Sample.separate_triple Sample.flatAt_partly hconfined).1 _ hok
  have hfirst : Sample.first.isDue false Sample.partly = true :=
    BuildUnit.isDue_of_staleness (Sample.missing_partly Sample.first (by decide))
  have hsecond : Sample.second.isDue false Sample.partly = true :=
    BuildUnit.isDue_of_staleness (Sample.missing_partly Sample.second (by decide))
  have hthird : Sample.third.isDue false Sample.partly = false :=
    BuildUnit.isDue_of_staleness Sample.upToDate_partly
  have horder : Sample.triple.order = [Sample.first, Sample.second, Sample.third] := rfl
  refine ⟨records, hok, hreports.trans ?_, hcalls.trans ?_⟩
  · rw [horder]
    simp only [List.map_cons, List.map_nil, hfirst, hsecond, hthird]
    rfl
  · rw [horder]
    simp only [List.filter_cons, List.filter_nil, hfirst, hsecond, hthird]
    decide

end

end BuildPlan

end QueryBuild

import QueryBuild.Proofs.Build.Failure
/-!
# What runs before an artifact

A run phase calls the artifacts of the units in build order, each of them at most once, and stops
at the first that does not end well. So the artifact of a unit is only called after the artifacts
of all units that its text refers to.
-/

namespace QueryBuild

/-- The files after an executor ran the artifacts of units one after the other. -/
def Executor.after (executor : Executor) (units : List BuildUnit) (fs : FileSystem) : FileSystem :=
  units.foldl (fun fs u => (executor u fs).files) fs

/-- The units whose artifacts were called, in the order of the calls. -/
def Event.executed (events : List Event) : List String :=
  events.filterMap fun
    | .called (.artifact unit) _ _ => some unit
    | _ => none

/-- The artifact of a unit was called and ended well. -/
def Event.Succeeded (unit : String) (events : List Event) : Prop :=
  ∃ ended output, .called (.artifact unit) (.ok ended) output ∈ events ∧ ended.success = true

namespace Event

theorem executed_append (before after : List Event) :
    executed (before ++ after) = executed before ++ executed after :=
  List.filterMap_append

theorem executed_called (name : String) (result : Except IoError ProcessOutput)
    (output : ByteArray) (events : List Event) :
    executed (.called (.artifact name) result output :: events) = name :: executed events :=
  rfl

theorem Succeeded.of_mem {unit : String} {events later : List Event}
    (h : Succeeded unit events) (hsub : events ⊆ later) : Succeeded unit later := by
  obtain ⟨ended, output, hmem, hsuccess⟩ := h
  exact ⟨ended, output, hsub hmem, hsuccess⟩

end Event

open Event

/-! ### One unit -/

namespace BuildUnit

/-- Running a unit calls its artifact, if that is a regular file, and nothing else. -/
theorem run_events (help : Collaborators) (u : BuildUnit) (fs : FileSystem) :
    (fs.isFile u.artifact = true ∧ (run help u fs).files = (help.executor u fs).files ∧
      (run help u fs).events = [.started .run u.name,
        .called (.artifact u.name) (help.executor u fs).result (help.executor u fs).output]) ∨
    (run help u fs).events = [] ∧ ∃ e, (run help u fs).result = .error e := by
  by_cases hfile : fs.isFile u.artifact = true
  · left
    rw [run, if_pos hfile]
    exact ⟨hfile, rfl, rfl⟩
  · right
    rw [run, if_neg hfile]
    exact ⟨rfl, _, rfl⟩

theorem success_of_run {help : Collaborators} {u : BuildUnit} {fs : FileSystem} {r : UnitRecord}
    (h : (run help u fs).result = .ok r) :
    ∃ ended, (help.executor u fs).result = .ok ended ∧ ended.success = true := by
  rw [run] at h
  split at h
  · obtain ⟨_, hjudge, -⟩ := ok_of_map h
    exact success_of_judge hjudge
  · cases h

theorem executed_compile (help : Collaborators) (force : Bool) (u : BuildUnit) (fs : FileSystem) :
    executed (compile help force u fs).events = [] := by
  rw [compile]
  split
  · rfl
  · split
    · rfl
    · rcases build_cases help u fs with
        ⟨e, events, hproduced, hbuild⟩ | ⟨sql, written, -, -, -, hbuild⟩
      · rw [hbuild]
        cases hproduced <;> rfl
      · rw [hbuild]
        rfl

end BuildUnit

/-! ### All units -/

namespace BuildPlan

variable {plan : BuildPlan} {help : Collaborators}

theorem executed_compile (plan : BuildPlan) (help : Collaborators) (force : Bool)
    (fs : FileSystem) : executed (plan.compile help force fs).events = [] :=
  filterMap_phase (BuildUnit.executed_compile help force) (fun _ => rfl) plan.order fs

/-- What the events of a phase on some units say of each call of an artifact: the units in front of
the called one ran before and ended well, and its artifact was a regular file. -/
def CallsInOrder (help : Collaborators) (units : List BuildUnit) (start : FileSystem)
    (events : List Event) : Prop :=
  ∀ before name result output after,
    events = before ++ .called (.artifact name) result output :: after →
    ∃ done u rest, units = done ++ u :: rest ∧ u.name = name ∧
      (help.executor.after done start).isFile u.artifact = true ∧
      result = (help.executor u (help.executor.after done start)).result ∧
      output = (help.executor u (help.executor.after done start)).output ∧
      ∀ v ∈ done, Succeeded v.name before

private theorem CallsInOrder.nil (help : Collaborators) (units : List BuildUnit)
    (start : FileSystem) :
    CallsInOrder help units start [] := by
  intro before name result output after hevents
  simp at hevents

private theorem CallsInOrder.behind {units : List BuildUnit} {start : FileSystem}
    {quiet events : List Event} (hquiet : executed quiet = [])
    (h : CallsInOrder help units start events) :
    CallsInOrder help units start (quiet ++ events) := by
  intro before name result output after hevents
  have hbefore : ∃ between, before = quiet ++ between ∧
      events = between ++ .called (.artifact name) result output :: after := by
    rcases List.append_eq_append_iff.mp hevents with
      ⟨between, hbefore, hevents⟩ | ⟨between, hbetween, hcall⟩
    · exact ⟨between, hbefore, hevents⟩
    · cases between with
      | nil => exact ⟨[], by simpa using hbetween.symm, hcall.symm⟩
      | cons first between =>
        obtain ⟨rfl, -⟩ := List.cons.inj hcall
        rw [hbetween, executed_append, executed_called] at hquiet
        simp at hquiet
  obtain ⟨between, rfl, hbetween⟩ := hbefore
  obtain ⟨done, u, rest, hunits, hname, hfile, hresult, houtput, hdone⟩ := h _ _ _ _ _ hbetween
  refine ⟨done, u, rest, hunits, hname, hfile, hresult, houtput, fun v hv => ?_⟩
  exact (hdone v hv).of_mem (List.subset_append_right _ _)

private theorem CallsInOrder.cons {u : BuildUnit} {units : List BuildUnit} {start : FileSystem}
    {events : List Event} (hfile : start.isFile u.artifact = true)
    (h : CallsInOrder help units (help.executor u start).files events)
    (hwell : executed events ≠ [] → ∃ ended, (help.executor u start).result = .ok ended ∧
      ended.success = true) :
    CallsInOrder help (u :: units) start
      (.started .run u.name :: .called (.artifact u.name) (help.executor u start).result
        (help.executor u start).output :: events) := by
  intro before name result output after hevents
  rcases before with _ | ⟨first, _ | ⟨second, before⟩⟩
  · cases hevents
  · -- the call of the first unit
    cases hevents
    exact ⟨[], u, units, rfl, rfl, hfile, rfl, rfl, by simp⟩
  · -- a later call
    simp only [List.cons_append, List.cons.injEq] at hevents
    obtain ⟨rfl, rfl, htail⟩ := hevents
    obtain ⟨done, v, rest, hunits, hname, hregular, hresult, houtput, hdone⟩ := h _ _ _ _ _ htail
    have hcalled : executed events ≠ [] := by
      rw [htail, executed_append, executed_called]
      simp
    obtain ⟨ended, hended, hsuccess⟩ := hwell hcalled
    refine ⟨u :: done, v, rest, by rw [hunits, List.cons_append], hname, hregular, hresult,
      houtput, ?_⟩
    intro w hw
    rcases List.mem_cons.mp hw with rfl | hw
    · exact ⟨ended, (help.executor w start).output, by simp [hended], hsuccess⟩
    · exact (hdone w hw).of_mem fun e he => by simp [he]

/-- The artifacts that a run phase calls, and what its events say of each call. -/
theorem phase_run_calls (plan : BuildPlan) (help : Collaborators) (units : List BuildUnit)
    (fs : FileSystem) :
    let events := (plan.phase .run (BuildUnit.run help) units fs).events
    (executed events).Sublist (units.map BuildUnit.name) ∧ CallsInOrder help units fs events := by
  induction units generalizing fs with
  | nil => exact ⟨List.Sublist.refl _, CallsInOrder.nil _ _ _⟩
  | cons u units ih =>
    rcases BuildUnit.run_events help u fs with ⟨hfile, hfiles, hevents⟩ | ⟨hevents, e, hresult⟩
    · cases hresult : (BuildUnit.run help u fs).result with
      | error e =>
        rw [phase_cons_error hresult, hevents]
        exact ⟨(List.nil_sublist _).cons_cons _,
          CallsInOrder.cons hfile (CallsInOrder.nil _ _ _) fun hcalled => absurd rfl hcalled⟩
      | ok record =>
        obtain ⟨hsub, hcalls⟩ := ih (help.executor u fs).files
        rw [phase_cons_ok hresult, hevents, hfiles]
        exact ⟨hsub.cons_cons _,
          CallsInOrder.cons hfile (hcalls.behind rfl) fun _ => BuildUnit.success_of_run hresult⟩
    · rw [phase_cons_error hresult, hevents]
      exact ⟨List.nil_sublist _, CallsInOrder.nil _ _ _⟩

/-- A run phase of a plan, alone or in a build: the files that it starts with, and all that
happens. -/
inductive Running (plan : BuildPlan) (help : Collaborators) : FileSystem → List Event → Prop
  | alone (fs : FileSystem) : Running plan help fs (plan.run help fs).events
  | inBuild (force : Bool) (fs : FileSystem) :
      Running plan help (plan.compile help force fs).files (plan.build help force fs).events

/-- The artifacts that are called, and what the events say of each call. -/
theorem Running.calls {start : FileSystem} {events : List Event}
    (h : Running plan help start events) :
    (executed events).Sublist plan.names ∧ CallsInOrder help plan.order start events := by
  cases h with
  | alone => exact phase_run_calls plan help plan.order start
  | inBuild force fs =>
    have hquiet := executed_compile plan help force fs
    cases hcompiled : (plan.compile help force fs).outcome with
    | error f =>
      simp only [build, hcompiled, hquiet]
      refine ⟨List.nil_sublist _, ?_⟩
      have hnone := CallsInOrder.behind hquiet
        (CallsInOrder.nil help plan.order (plan.compile help force fs).files)
      rwa [List.append_nil] at hnone
    | ok records =>
      obtain ⟨hsub, hcalls⟩ := phase_run_calls plan help plan.order
        (plan.compile help force fs).files
      simp only [build, hcompiled, BuildResult.after, executed_append, hquiet, List.nil_append]
      exact ⟨hsub, hcalls.behind hquiet⟩

/-- A run phase calls no artifact twice. At each call, the artifact is a regular file, and every
unit that the called one referred to when it was discovered was called before and ended well. -/
theorem runs_behind_references {extract : Extractor} {found : FileSystem} {path : Path}
    {start : FileSystem} {events : List Event}
    (hplan : (resolveWith extract found path).2 = .ok plan)
    (hrun : Running plan help start events) :
    (executed events).Nodup ∧
      ∀ before name result output after,
        events = before ++ .called (.artifact name) result output :: after →
        ∃ done u rest, plan.order = done ++ u :: rest ∧ u.name = name ∧
          (help.executor.after done start).isFile u.artifact = true ∧
          result = (help.executor u (help.executor.after done start)).result ∧
          output = (help.executor u (help.executor.after done start)).output ∧
          ∃ sql, u.sourceText found = .ok sql ∧
            ∀ v ∈ plan.discovered.units, v.name ∈ extract sql → Succeeded v.name before := by
  have h := resolved_of_resolveWith hplan
  obtain ⟨hsub, hcalls⟩ := hrun.calls
  refine ⟨h.nodup.sublist hsub, ?_⟩
  intro before name result output after hevents
  obtain ⟨done, u, rest, hsplit, hname, hfile, hresult, houtput, hdone⟩ := hcalls _ _ _ _ _ hevents
  have hu : u ∈ plan.discovered.units := (h.mem_order u).mp (by simp [hsplit])
  obtain ⟨sql, hread⟩ := h.linked.readable u hu
  refine ⟨done, u, rest, hsplit, hname, hfile, hresult, houtput, sql, hread, ?_⟩
  intro v hv hrefers
  have hdepends : plan.discovered.graph.DependsOn u.name v.name :=
    (h.linked.dependsOn_iff u hu sql hread v.name).mpr ⟨hrefers, List.mem_map_of_mem hv⟩
  obtain ⟨w, hw, hsame⟩ :=
    List.mem_map.mp (h.respects _ _ _ (names_split hsplit) _ hdepends)
  rw [← hsame]
  exact hdone w hw

namespace Sample

/-- Both units are compiled. -/
def compiled : FileSystem :=
  { files with
    entries := files.entries ++ [
      ([FileName.ofText "w", FileName.ofText "a"], .file .empty 2 true),
      ([FileName.ofText "w", FileName.ofText "b"], .file .empty 2 true)] }

/-- Every artifact runs well and writes nothing. -/
def willing : Collaborators :=
  { idle with executor := fun _ fs => ⟨.ok .succeeded, fs, .empty⟩ }

theorem run_willing {u : BuildUnit} {fs : FileSystem} (hfile : fs.isFile u.artifact = true) :
    u.run willing fs = ⟨.ok (.ofUnit fs u .executed), fs,
      [.started .run u.name, .called (.artifact u.name) (.ok .succeeded) .empty]⟩ := by
  rw [BuildUnit.run, if_pos hfile]
  rfl

theorem isFile_compiled : ∀ u ∈ [first, second], compiled.isFile u.artifact = true := by
  intro u hu
  rcases List.mem_cons.mp hu with rfl | hu
  · rw [FileSystem.isFile, FileSystem.find,
      FileSystem.resolve_of_walk ["w", "a"] (by decide) (by decide) rfl]
    cbv
  · rw [List.mem_singleton.mp hu, FileSystem.isFile, FileSystem.find,
      FileSystem.resolve_of_walk ["w", "b"] (by decide) (by decide) rfl]
    cbv

end Sample

/-- The second unit is only called after the first one ended well. -/
theorem second_runs_behind_first :
    ∃ before result output after, (Sample.pair.run Sample.willing Sample.compiled).events =
      before ++ .called (.artifact "b") result output :: after ∧ Succeeded "a" before := by
  have hfirst := Sample.run_willing (Sample.isFile_compiled Sample.first (by simp))
  have hsecond := Sample.run_willing (Sample.isFile_compiled Sample.second (by simp))
  have hevents : (Sample.pair.run Sample.willing Sample.compiled).events =
      [.started .run "a", .called (.artifact "a") (.ok .succeeded) .empty,
        .finished .run (.ofUnit Sample.compiled Sample.first .executed), .started .run "b"] ++
      .called (.artifact "b") (.ok .succeeded) .empty ::
        [.finished .run (.ofUnit Sample.compiled Sample.second .executed)] := by
    have horder : Sample.pair.order = [Sample.first, Sample.second] := rfl
    rw [run, horder, phase_cons_ok (congrArg Step.result hfirst), hfirst,
      phase_cons_ok (congrArg Step.result hsecond), hsecond]
    rfl
  obtain ⟨-, hcalls⟩ := runs_behind_references Sample.resolve_files (.alone Sample.compiled)
  obtain ⟨done, u, rest, horder, hname, -, -, -, sql, hread, hbefore⟩ := hcalls _ _ _ _ _ hevents
  refine ⟨_, _, _, _, hevents, hbefore Sample.first (by simp [Sample.pair]) ?_⟩
  have hu : u ∈ [Sample.first, Sample.second] := by
    have hpair : [Sample.first, Sample.second] = done ++ u :: rest := horder
    rw [hpair]
    simp
  have hsame : u = Sample.second := by
    rcases List.mem_cons.mp hu with rfl | hu
    · exact absurd hname (by decide)
    · exact List.mem_singleton.mp hu
  rw [hsame, Sample.sourceText_second] at hread
  cases hread
  have hnames : Reference.names "SELECT * FROM 'a.csv'" = ["a"] := by cbv
  rw [hnames]
  exact List.mem_singleton.mpr rfl

end BuildPlan

end QueryBuild

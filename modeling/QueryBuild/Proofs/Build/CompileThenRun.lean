import QueryBuild.Proofs.Build.Execution
import QueryBuild.Proofs.Build.Pointwise
/-!
# Compiling and then running

A build is a compile phase and, only if that succeeds, a run phase on the files that it left. So
all calls of the compiler come before all calls of artifacts, no record of the first phase is lost
when the second one ends, and a build fails as the phase does in which it stops.
-/

namespace QueryBuild

/-- The calls of other programs, in their order; a validator is no program. -/
def Event.calls (events : List Event) : List Call :=
  events.filterMap fun
    | .called (.validator _ _) _ _ => none
    | .called call _ _ => some call
    | _ => none

namespace Event

variable {events : List Event}

theorem calls_append (before after : List Event) :
    calls (before ++ after) = calls before ++ calls after :=
  List.filterMap_append

/-- What is called is the compiler or an artifact. -/
theorem mem_calls {call : Call} (h : call ∈ calls events) :
    (∃ program artifact, call = .compiler program artifact ∧
      (program, artifact) ∈ compiled events) ∨
    ∃ unit, call = .artifact unit ∧ unit ∈ executed events := by
  obtain ⟨event, hevent, hcall⟩ := List.mem_filterMap.mp h
  cases event with
  | called other result output =>
    cases other with
    | validator unit sql => cases hcall
    | compiler program artifact =>
      cases hcall
      exact Or.inl ⟨program, artifact, rfl, mem_compiled hevent⟩
    | artifact unit =>
      cases hcall
      exact Or.inr ⟨unit, rfl, List.mem_filterMap.mpr ⟨_, hevent, rfl⟩⟩
  | _ => cases hcall

theorem compiler_of_mem_calls (h : executed events = []) {call : Call}
    (hcall : call ∈ calls events) :
    ∃ program artifact, call = .compiler program artifact := by
  rcases mem_calls hcall with ⟨program, artifact, heq, -⟩ | ⟨unit, -, hunit⟩
  · exact ⟨program, artifact, heq⟩
  · rw [h] at hunit
    cases hunit

theorem artifact_of_mem_calls (h : compiled events = []) {call : Call}
    (hcall : call ∈ calls events) : ∃ unit, call = .artifact unit := by
  rcases mem_calls hcall with ⟨program, artifact, -, hmem⟩ | ⟨unit, heq, -⟩
  · rw [h] at hmem
    cases hmem
  · exact ⟨unit, heq⟩

end Event

open Event

namespace BuildUnit

theorem compiled_run (help : Collaborators) (u : BuildUnit) (fs : FileSystem) :
    compiled (run help u fs).events = [] := by
  rcases run_events help u fs with ⟨-, -, hevents⟩ | ⟨hevents, -⟩
  · rw [hevents]
    rfl
  · rw [hevents]
    rfl

theorem recorded_of_run {help : Collaborators} {u : BuildUnit} {fs : FileSystem} {r : UnitRecord}
    (h : (run help u fs).result = .ok r) : (r.name, r.action) = (u.name, UnitAction.executed) := by
  rw [run] at h
  split at h
  · obtain ⟨-, -, rfl⟩ := ok_of_map h
    rfl
  · cases h

end BuildUnit

namespace BuildPlan

variable {plan : BuildPlan} {help : Collaborators} {force : Bool} {fs : FileSystem}

/-! ### The two phases -/

theorem compiled_run (plan : BuildPlan) (help : Collaborators) (fs : FileSystem) :
    compiled (plan.run help fs).events = [] :=
  filterMap_phase (BuildUnit.compiled_run help) (fun _ => rfl) plan.order fs

theorem names_of_compile {records : List UnitRecord}
    (h : (plan.compile help force fs).outcome = .ok records) :
    records.map UnitRecord.name = plan.names :=
  map_phase (BuildUnit.namesUnit_compile help force).record h

theorem phase_of_compile_error {f : BuildFailure}
    (h : (plan.compile help force fs).outcome = .error f) : f.phase = .compile := by
  obtain ⟨-, -, -, -, -, -, -, -, -, rfl⟩ := phase_stops h
  rfl

theorem recorded_of_phase_run {units : List BuildUnit} {records : List UnitRecord}
    (h : (plan.phase .run (BuildUnit.run help) units fs).outcome = .ok records) :
    records.map (fun r => (r.name, r.action)) =
      units.map fun u => (u.name, UnitAction.executed) := by
  apply map_phase _ h
  intro u fs record hrecord
  exact BuildUnit.recorded_of_run hrecord

/-- A run phase that fails did run the units in front of the failed one. -/
theorem run_error {f : BuildFailure} (h : (plan.run help fs).outcome = .error f) :
    ∃ position u, plan.order[position]? = some u ∧ f.phase = .run ∧ f.unit = some u.name ∧
      f.completed.map (fun r => (r.name, r.action)) =
        (plan.order.take position).map fun u => (u.name, UnitAction.executed) := by
  rw [run] at h
  obtain ⟨done, u, rest, completed, e, hsplit, hdone, hstop, -, rfl⟩ := phase_stops h
  have hposition : plan.order[done.length]? = some u := by
    rw [hsplit, List.getElem?_append_right (Nat.le_refl _), Nat.sub_self, List.getElem?_cons_zero]
  refine ⟨done.length, u, hposition, rfl, (BuildUnit.namesUnit_run help).error u _ e hstop, ?_⟩
  rw [BuildFailure.completed_after_atUnit, hsplit, List.take_left]
  exact recorded_of_phase_run hdone

/-! ### One behind the other -/

theorem build_of_error {f : BuildFailure} (h : (plan.compile help force fs).outcome = .error f) :
    plan.build help force fs = plan.compile help force fs := by
  rw [build, h]

theorem build_of_ok {records : List UnitRecord}
    (h : (plan.compile help force fs).outcome = .ok records) :
    plan.build help force fs = (plan.run help (plan.compile help force fs).files).after records
      (plan.compile help force fs).events := by
  rw [build, h]

/-- A build calls the compiler as its compile phase does, and after that artifacts as a run phase
does, if the compile phase succeeded. -/
theorem calls_build (plan : BuildPlan) (help : Collaborators) (force : Bool) (fs : FileSystem) :
    (∃ f, (plan.compile help force fs).outcome = .error f ∧
      calls (plan.build help force fs).events = calls (plan.compile help force fs).events) ∨
    ∃ records, (plan.compile help force fs).outcome = .ok records ∧
      calls (plan.build help force fs).events = calls (plan.compile help force fs).events ++
        calls (plan.run help (plan.compile help force fs).files).events := by
  cases hcompile : (plan.compile help force fs).outcome with
  | error f =>
    left
    exact ⟨f, rfl, by rw [build_of_error hcompile]⟩
  | ok records =>
    right
    refine ⟨records, rfl, ?_⟩
    rw [build_of_ok hcompile]
    exact calls_append _ _

theorem build_ok {records : List UnitRecord} (h : (plan.build help force fs).outcome = .ok records) :
    ∃ first last, (plan.compile help force fs).outcome = .ok first ∧
      (plan.run help (plan.compile help force fs).files).outcome = .ok last ∧
      records = first ++ last := by
  cases hcompile : (plan.compile help force fs).outcome with
  | error f =>
    rw [build_of_error hcompile, hcompile] at h
    cases h
  | ok first =>
    rw [build_of_ok hcompile] at h
    obtain ⟨last, hlast, rfl⟩ := BuildResult.ok_of_after h
    exact ⟨first, last, rfl, hlast, rfl⟩

/-- A build fails as its compile phase, or as its run phase with more records in front. -/
theorem build_error {f : BuildFailure} (h : (plan.build help force fs).outcome = .error f) :
    f.phase = .compile ∧ plan.build help force fs = plan.compile help force fs ∨
    ∃ first failed, (plan.compile help force fs).outcome = .ok first ∧
      (plan.run help (plan.compile help force fs).files).outcome = .error failed ∧
      f = failed.after first := by
  cases hcompile : (plan.compile help force fs).outcome with
  | error g =>
    left
    have hsame := build_of_error hcompile
    rw [hsame] at h
    exact ⟨phase_of_compile_error h, hsame⟩
  | ok first =>
    right
    rw [build_of_ok hcompile] at h
    obtain ⟨failed, hfailed, rfl⟩ := BuildResult.error_of_after h
    exact ⟨first, failed, rfl, hfailed, rfl⟩

/-- A build calls the compiler as its compile phase does, and artifacts after that only if the
phase succeeded. If both phases succeed, its records are those of the compile phase and one for each
execution, in build order. A build that stops in the compile phase is that phase and calls no
artifact. One that stops in the run phase fails as that phase does on the files that the compile
phase left, with all records of the compile phase in front. -/
theorem build_phases_apart (plan : BuildPlan) (help : Collaborators) (force : Bool)
    (fs : FileSystem) :
    let compiling := plan.compile help force fs
    let running := plan.run help compiling.files
    let building := plan.build help force fs
    (∃ compiles executes, calls building.events = compiles ++ executes ∧
      compiles = calls compiling.events ∧
      (∀ call ∈ compiles, ∃ program artifact, call = .compiler program artifact) ∧
      (∀ call ∈ executes, ∃ unit, call = .artifact unit) ∧
      (executes ≠ [] → executes = calls running.events ∧
        ∃ records, compiling.outcome = .ok records ∧ records.map UnitRecord.name = plan.names)) ∧
    (∀ records, building.outcome = .ok records → records.length = 2 * plan.order.length ∧
      ∃ first last, records = first ++ last ∧ first.length = plan.order.length ∧
        compiling.outcome = .ok first ∧ running.outcome = .ok last ∧
        last.map (fun r => (r.name, r.action)) =
          plan.order.map fun u => (u.name, UnitAction.executed)) ∧
    ∀ f, building.outcome = .error f →
      (f.phase = .compile → building = compiling ∧ executed building.events = []) ∧
      (f.phase = .run → ∃ first failed position u, compiling.outcome = .ok first ∧
        first.map UnitRecord.name = plan.names ∧ running.outcome = .error failed ∧
        f = { failed with completed := first ++ failed.completed } ∧
        plan.order[position]? = some u ∧ f.unit = some u.name ∧
        failed.completed.map (fun r => (r.name, r.action)) =
          (plan.order.take position).map fun u => (u.name, UnitAction.executed)) := by
  intro compiling running building
  have hcompiles : ∀ call ∈ calls compiling.events, ∃ program artifact,
      call = .compiler program artifact :=
    fun _ => compiler_of_mem_calls (executed_compile plan help force fs)
  have hexecutes : ∀ call ∈ calls running.events, ∃ unit, call = .artifact unit :=
    fun _ => artifact_of_mem_calls (compiled_run plan help compiling.files)
  refine ⟨?_, ?_, ?_⟩
  · rcases calls_build plan help force fs with ⟨f, -, hcalls⟩ | ⟨records, hrecords, hcalls⟩
    · exact ⟨_, [], by rw [hcalls, List.append_nil], rfl, hcompiles, by simp, by simp⟩
    · exact ⟨_, _, hcalls, rfl, hcompiles, hexecutes,
        fun _ => ⟨rfl, records, hrecords, names_of_compile hrecords⟩⟩
  · intro records hok
    obtain ⟨first, last, hfirst, hlast, rfl⟩ := build_ok hok
    have hlength : first.length = plan.order.length := by
      simpa [names] using congrArg List.length (names_of_compile hfirst)
    have hrecorded := recorded_of_phase_run hlast
    have hlength' : last.length = plan.order.length := by
      simpa using congrArg List.length hrecorded
    refine ⟨?_, first, last, rfl, hlength, hfirst, hlast, hrecorded⟩
    rw [List.length_append, hlength, hlength']
    omega
  · intro f hf
    rcases build_error hf with ⟨hphase, hsame⟩ | ⟨first, failed, hfirst, hfailed, rfl⟩
    · refine ⟨fun _ => ⟨hsame, ?_⟩, fun hother => ?_⟩
      · rw [show building = compiling from hsame]
        exact executed_compile plan help force fs
      · rw [hphase] at hother
        cases hother
    · -- the phase of the failure is that of the run, so it is none of the compile phase
      obtain ⟨position, u, hposition, hphase, hunit, hrecorded⟩ := run_error hfailed
      refine ⟨fun hother => ?_, fun _ => ⟨first, failed, position, u, hfirst,
        names_of_compile hfirst, hfailed, rfl, hposition, hunit, hrecorded⟩⟩
      rw [BuildFailure.after, hphase] at hother
      cases hother

end BuildPlan

end QueryBuild

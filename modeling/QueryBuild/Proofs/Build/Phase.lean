import QueryBuild.Build.Pipeline
import QueryBuild.Proofs.Build.Step
import QueryBuild.Proofs.Discovery
/-!
# Where a phase stops

A phase does its work on one unit after the other: on a list of units that is cut in two, it does it
on the front part and then on the back part, with the files that the front part left. A phase that
fails has done its work on the units in front of the failed one and on no other unit.
-/

namespace QueryBuild

/-- The errors of the work on a unit in a phase, each with the file that it is about. -/
inductive BuildError.ArisesAt (u : BuildUnit) : Phase → BuildError → Option Path → Prop where
  | inaccessible (cause : IoError) :
    ArisesAt u .compile (.inaccessible u.name u.source cause) (some u.source)
  | invalid (reason : String) :
    ArisesAt u .compile (.invalid u.name ⟨reason, some u.source⟩) (some u.source)
  | notGenerated (cause : IoError) :
    ArisesAt u .compile (.notGenerated u.name u.program cause) (some u.program)
  | notCompiled (reason stderr : String) :
    ArisesAt u .compile (.notCompiled u.name reason stderr) none
  | notExecuted (reason stderr : String) :
    ArisesAt u .run (.notExecuted u.name reason stderr) none

theorem BuildError.ArisesAt.unit {u : BuildUnit} {kind : Phase} {e : BuildError}
    {file : Option Path} (h : e.ArisesAt u kind file) : e.unit = some u.name := by
  cases h <;> rfl

/-- The records and errors of a piece of work name the unit that is worked on. -/
structure NamesUnit (step : BuildUnit → FileSystem → Step UnitRecord) : Prop where
  record : ∀ u fs r, (step u fs).result = .ok r → r.name = u.name
  error : ∀ u fs e, (step u fs).result = .error e → e.unit = some u.name

namespace BuildUnit

theorem Produced.arisesAt {validator : Validator} {u : BuildUnit} {fs : FileSystem}
    {step : Step Program} (h : Produced validator u fs step) {e : BuildError}
    (he : step.result = .error e) : ∃ file, e.ArisesAt u .compile file := by
  cases h with
  | unread =>
    cases he
    exact ⟨_, .inaccessible _⟩
  | refused =>
    cases he
    exact ⟨_, .invalid _⟩
  | unwritten =>
    cases he
    exact ⟨_, .notGenerated _⟩
  | placed => cases he

theorem arisesAt_of_build {help : Collaborators} {u : BuildUnit} {fs : FileSystem} {e : BuildError}
    (h : (u.build help fs).result = .error e) : ∃ file, e.ArisesAt u .compile file := by
  rcases build_cases help u fs with
    ⟨e', events, hproduced, hbuild⟩ | ⟨sql, written, -, -, -, hbuild⟩
  · rw [hbuild] at h
    cases h
    exact hproduced.arisesAt rfl
  · rw [hbuild] at h
    obtain ⟨reason, stderr, rfl⟩ := error_of_judge h
    exact ⟨_, .notCompiled reason stderr⟩

theorem arisesAt_of_compile {help : Collaborators} {force : Bool} {u : BuildUnit} {fs : FileSystem}
    {e : BuildError} (h : (u.compile help force fs).result = .error e) :
    ∃ file, e.ArisesAt u .compile file := by
  rw [compile] at h
  split at h
  · cases h
    exact ⟨_, .inaccessible _⟩
  · split at h
    · cases h
    · exact arisesAt_of_build (error_of_map h)

theorem arisesAt_of_run {help : Collaborators} {u : BuildUnit} {fs : FileSystem} {e : BuildError}
    (h : (u.run help fs).result = .error e) : ∃ file, e.ArisesAt u .run file := by
  rw [run] at h
  split at h
  · obtain ⟨reason, stderr, rfl⟩ := error_of_judge (error_of_map h)
    exact ⟨_, .notExecuted reason stderr⟩
  · cases h
    exact ⟨_, .notExecuted _ _⟩

theorem namesUnit_compile (help : Collaborators) (force : Bool) :
    NamesUnit (compile help force) where
  record u fs r h := by
    rw [compile] at h
    split at h
    · cases h
    · split at h
      · cases h
        rfl
      · obtain ⟨-, -, rfl⟩ := ok_of_map h
        rfl
  error u fs e h := by
    obtain ⟨file, harises⟩ := arisesAt_of_compile h
    exact harises.unit

theorem namesUnit_run (help : Collaborators) : NamesUnit (run help) where
  record u fs r h := by
    rw [run] at h
    split at h
    · obtain ⟨-, -, rfl⟩ := ok_of_map h
      rfl
    · cases h
  error u fs e h := by
    obtain ⟨file, harises⟩ := arisesAt_of_run h
    exact harises.unit

end BuildUnit

/-! ### Results one after the other -/

namespace BuildFailure

theorem after_after (f : BuildFailure) (records earlier : List UnitRecord) :
    (f.after records).after earlier = f.after (earlier ++ records) := by
  rw [after, after, after, List.append_assoc]

theorem completed_after_atUnit (plan : BuildPlan) (kind : Phase) (u : BuildUnit) (e : BuildError)
    (rest : List BuildUnit) (records : List UnitRecord) :
    ((atUnit plan kind u e rest).after records).completed = records :=
  List.append_nil records

end BuildFailure

namespace BuildResult

variable {r : BuildResult} {records : List UnitRecord} {events : List Event}

theorem after_nil (r : BuildResult) : r.after [] [] = r := by
  obtain ⟨outcome, files, events⟩ := r
  cases outcome <;> rfl

theorem after_after (r : BuildResult) (records earlier : List UnitRecord)
    (events before : List Event) :
    (r.after records events).after earlier before =
      r.after (earlier ++ records) (before ++ events) := by
  obtain ⟨outcome, files, later⟩ := r
  cases outcome with
  | ok done => simp only [after, List.append_assoc]
  | error f => simp only [after, BuildFailure.after_after, List.append_assoc]

theorem ok_of_after {all : List UnitRecord} (h : (r.after records events).outcome = .ok all) :
    ∃ later, r.outcome = .ok later ∧ all = records ++ later := by
  rw [after] at h
  split at h
  · cases h
    exact ⟨_, ‹_›, rfl⟩
  · cases h

theorem error_of_after {f : BuildFailure} (h : (r.after records events).outcome = .error f) :
    ∃ later, r.outcome = .error later ∧ f = later.after records := by
  rw [after] at h
  split at h
  · cases h
  · cases h
    exact ⟨_, ‹_›, rfl⟩

end BuildResult

/-! ### Phases -/

namespace BuildPlan

variable {plan : BuildPlan} {kind : Phase} {step : BuildUnit → FileSystem → Step UnitRecord}

theorem phase_cons_error {u : BuildUnit} {fs : FileSystem} {e : BuildError}
    (h : (step u fs).result = .error e) (units : List BuildUnit) :
    plan.phase kind step (u :: units) fs =
      ⟨.error (.atUnit plan kind u e units), (step u fs).files, (step u fs).events⟩ := by
  rw [phase]
  simp only [h]

theorem phase_cons_ok {u : BuildUnit} {fs : FileSystem} {record : UnitRecord}
    (h : (step u fs).result = .ok record) (units : List BuildUnit) :
    plan.phase kind step (u :: units) fs =
      (plan.phase kind step units (step u fs).files).after [record]
        ((step u fs).events ++ [.finished kind record]) := by
  rw [phase]
  simp only [h]

theorem phase_append_ok {front : List BuildUnit} {fs : FileSystem} {records : List UnitRecord}
    (h : (plan.phase kind step front fs).outcome = .ok records) (back : List BuildUnit) :
    plan.phase kind step (front ++ back) fs =
      (plan.phase kind step back (plan.phase kind step front fs).files).after records
        (plan.phase kind step front fs).events := by
  induction front generalizing fs records with
  | nil =>
    cases h
    exact (BuildResult.after_nil _).symm
  | cons u front ih =>
    cases hresult : (step u fs).result with
    | error e =>
      rw [phase_cons_error hresult] at h
      cases h
    | ok record =>
      rw [phase_cons_ok hresult] at h
      obtain ⟨later, hlater, rfl⟩ := BuildResult.ok_of_after h
      rw [List.cons_append, phase_cons_ok hresult, phase_cons_ok hresult, ih hlater,
        BuildResult.after_after]
      rfl

theorem phase_front_ok {front back : List BuildUnit} {fs : FileSystem} {records : List UnitRecord}
    (h : (plan.phase kind step (front ++ back) fs).outcome = .ok records) :
    ∃ done, (plan.phase kind step front fs).outcome = .ok done := by
  induction front generalizing fs records with
  | nil => exact ⟨[], rfl⟩
  | cons u front ih =>
    cases hresult : (step u fs).result with
    | error e =>
      rw [List.cons_append, phase_cons_error hresult] at h
      cases h
    | ok record =>
      rw [List.cons_append, phase_cons_ok hresult] at h
      obtain ⟨later, hlater, -⟩ := BuildResult.ok_of_after h
      obtain ⟨done, hdone⟩ := ih hlater
      rw [phase_cons_ok hresult, BuildResult.after, hdone]
      exact ⟨_, rfl⟩

/-- A phase that succeeds did its work on each unit with the files that the units in front left. -/
theorem phase_split_ok {front back : List BuildUnit} {u : BuildUnit} {fs : FileSystem}
    {records : List UnitRecord}
    (h : (plan.phase kind step (front ++ u :: back) fs).outcome = .ok records) :
    ∃ done record behind, (plan.phase kind step front fs).outcome = .ok done ∧
      (step u (plan.phase kind step front fs).files).result = .ok record ∧
      (plan.phase kind step back (step u (plan.phase kind step front fs).files).files).outcome =
        .ok behind ∧
      (plan.phase kind step (front ++ u :: back) fs).files =
        (plan.phase kind step back (step u (plan.phase kind step front fs).files).files).files := by
  obtain ⟨done, hdone⟩ := phase_front_ok h
  rw [phase_append_ok hdone] at h ⊢
  obtain ⟨later, hlater, -⟩ := BuildResult.ok_of_after h
  cases hresult : (step u (plan.phase kind step front fs).files).result with
  | error e =>
    rw [phase_cons_error hresult] at hlater
    cases hlater
  | ok record =>
    rw [phase_cons_ok hresult] at hlater ⊢
    obtain ⟨behind, hbehind, -⟩ := BuildResult.ok_of_after hlater
    exact ⟨done, record, behind, hdone, rfl, hbehind, rfl⟩

/-- What holds of the record of each unit holds of the records of a phase. -/
theorem map_phase {α : Type} {said : UnitRecord → α} {expected : BuildUnit → α}
    (h : ∀ u fs record, (step u fs).result = .ok record → said record = expected u)
    {units : List BuildUnit} {fs : FileSystem} {records : List UnitRecord}
    (hok : (plan.phase kind step units fs).outcome = .ok records) :
    records.map said = units.map expected := by
  induction units generalizing fs records with
  | nil =>
    cases hok
    rfl
  | cons u units ih =>
    cases hresult : (step u fs).result with
    | error e =>
      rw [phase_cons_error hresult] at hok
      cases hok
    | ok record =>
      rw [phase_cons_ok hresult] at hok
      obtain ⟨later, hlater, rfl⟩ := BuildResult.ok_of_after hok
      rw [List.singleton_append, List.map_cons, List.map_cons, h u fs record hresult, ih hlater]

/-- What happens in a phase is the end of the work on a unit, or it happens during this work. -/
theorem mem_phase {units : List BuildUnit} {fs : FileSystem} {event : Event}
    (h : event ∈ (plan.phase kind step units fs).events) :
    (∃ record, event = .finished kind record) ∨
      ∃ u ∈ units, ∃ now, event ∈ (step u now).events := by
  induction units generalizing fs with
  | nil => cases h
  | cons u units ih =>
    cases hresult : (step u fs).result with
    | error e =>
      rw [phase_cons_error hresult] at h
      exact Or.inr ⟨u, List.mem_cons_self, fs, h⟩
    | ok record =>
      rw [phase_cons_ok hresult, BuildResult.after] at h
      rcases List.mem_append.mp h with hfirst | hlater
      · rcases List.mem_append.mp hfirst with hwork | hend
        · exact Or.inr ⟨u, List.mem_cons_self, fs, hwork⟩
        · exact Or.inl ⟨record, List.mem_singleton.mp hend⟩
      · exact (ih hlater).imp_right fun ⟨v, hv, hwork⟩ => ⟨v, List.mem_cons_of_mem _ hv, hwork⟩

theorem filterMap_phase {α : Type} {seen : Event → Option α}
    (hstep : ∀ u fs, (step u fs).events.filterMap seen = [])
    (hfinished : ∀ record, seen (.finished kind record) = none) (units : List BuildUnit)
    (fs : FileSystem) : (plan.phase kind step units fs).events.filterMap seen = [] := by
  rw [List.filterMap_eq_nil_iff]
  intro event hevent
  rcases mem_phase hevent with ⟨record, rfl⟩ | ⟨u, -, now, hwork⟩
  · exact hfinished record
  · exact List.filterMap_eq_nil_iff.mp (hstep u now) event hwork

/-- A phase that fails stops at a unit whose work fails, with the records of those in front. -/
theorem phase_stops {units : List BuildUnit} {fs : FileSystem} {f : BuildFailure}
    (hf : (plan.phase kind step units fs).outcome = .error f) :
    ∃ done u rest completed e, units = done ++ u :: rest ∧
      (plan.phase kind step done fs).outcome = .ok completed ∧
      (step u (plan.phase kind step done fs).files).result = .error e ∧
      (plan.phase kind step units fs).files = (step u (plan.phase kind step done fs).files).files ∧
      f = (BuildFailure.atUnit plan kind u e rest).after completed := by
  induction units generalizing fs f with
  | nil => cases hf
  | cons u units ih =>
    cases hresult : (step u fs).result with
    | error e =>
      rw [phase_cons_error hresult] at hf ⊢
      cases hf
      exact ⟨[], u, units, [], e, rfl, rfl, hresult, rfl, rfl⟩
    | ok record =>
      rw [phase_cons_ok hresult] at hf ⊢
      obtain ⟨later, hlater, rfl⟩ := BuildResult.error_of_after hf
      obtain ⟨done, v, rest, completed, e, rfl, hdone, hstop, hfiles, rfl⟩ := ih hlater
      refine ⟨u :: done, v, rest, record :: completed, e, rfl, ?_, ?_, ?_, ?_⟩
      · rw [phase_cons_ok hresult, BuildResult.after, hdone]
        rfl
      · rw [phase_cons_ok hresult]
        exact hstop
      · rw [phase_cons_ok hresult]
        exact hfiles
      · rw [BuildFailure.after_after]
        rfl

/-- A failed phase has completed the units in front of the failed one. -/
theorem phase_error (h : NamesUnit step) {units : List BuildUnit} {fs : FileSystem}
    {f : BuildFailure} (hf : (plan.phase kind step units fs).outcome = .error f) :
    ∃ done u rest, units = done ++ u :: rest ∧ f.phase = kind ∧ f.unit = some u.name ∧
      f.completed.map UnitRecord.name = done.map BuildUnit.name ∧
      f.blocked = (plan.dependents u.name rest).1.map BuildUnit.name ∧
      f.unreached = f.blocked ++ (plan.dependents u.name rest).2.map BuildUnit.name := by
  obtain ⟨done, u, rest, completed, e, hunits, hdone, hstop, -, rfl⟩ := phase_stops hf
  refine ⟨done, u, rest, hunits, rfl, h.error u _ e hstop, ?_, rfl, rfl⟩
  rw [BuildFailure.completed_after_atUnit]
  exact map_phase h.record hdone

end BuildPlan

end QueryBuild

import QueryBuild.Build.Step
import QueryBuild.Proofs.Outcome
/-!
# What the steps of building a unit lead to

To build a unit is to produce its program and then to call the compiler. What the first step may
lead to, and what calling a program means for the unit, is told here case by case, with the files
and the events; all that is proved of building a unit comes from these cases.
-/

namespace QueryBuild

namespace Step

variable {α β : Type} {s : Step α} {next : α → FileSystem → Step β}

theorem andThen_error {e : BuildError} (h : s.result = .error e) :
    s.andThen next = ⟨.error e, s.files, s.events⟩ := by
  rw [andThen, h]

theorem andThen_ok {given : α} (h : s.result = .ok given) :
    s.andThen next = ⟨(next given s.files).result, (next given s.files).files,
      s.events ++ (next given s.files).events⟩ := by
  rw [andThen, h]

/-- What happened in a step is part of what happens if one goes on with it. -/
theorem events_subset (s : Step α) (next : α → FileSystem → Step β) :
    s.events ⊆ (s.andThen next).events := by
  rw [andThen]
  split
  · exact List.Subset.refl _
  · exact List.subset_append_left _ _

end Step

namespace BuildUnit

variable {validator : Validator} {help : Collaborators} {u : BuildUnit} {fs : FileSystem}

/-! ### Called programs -/

theorem error_of_judge {refused : String} {error : String → String → BuildError}
    {result : Except IoError ProcessOutput} {e : BuildError}
    (h : judge refused error result = .error e) : ∃ reason stderr, e = error reason stderr := by
  cases result with
  | error cause =>
    cases h
    exact ⟨_, _, rfl⟩
  | ok output =>
    rw [judge] at h
    split at h
    · cases h
    · cases h
      exact ⟨_, _, rfl⟩

theorem success_of_judge {refused : String} {error : String → String → BuildError}
    {result : Except IoError ProcessOutput} (h : judge refused error result = .ok ()) :
    ∃ ended, result = .ok ended ∧ ended.success = true := by
  cases result with
  | error cause => cases h
  | ok ended =>
    rw [judge] at h
    split at h
    · exact ⟨ended, rfl, ‹_›⟩
    · cases h

/-! ### Producing a program -/

/-- What producing the program of a unit may lead to. Files are changed only if the program is
written, and the validator is asked if the text can be read. -/
inductive Produced (validator : Validator) (u : BuildUnit) (fs : FileSystem) :
    Step Program → Prop
  | unread {cause : IoError} (read : u.sourceText fs = .error cause) :
    Produced validator u fs ⟨.error (.inaccessible u.name u.source cause), fs, []⟩
  | refused {sql reason : String} (read : u.sourceText fs = .ok sql)
      (verdict : validator sql = .error reason) :
    Produced validator u fs ⟨.error (.invalid u.name ⟨reason, some u.source⟩), fs,
      [.called (.validator u.name sql) (.error reason) .empty]⟩
  | unwritten {sql : String} {cause : IoError} (read : u.sourceText fs = .ok sql)
      (verdict : validator sql = .ok ())
      (written : fs.writeText u.program (Program.render u sql).source = .error cause) :
    Produced validator u fs ⟨.error (.notGenerated u.name u.program cause), fs,
      [.called (.validator u.name sql) (.ok ()) .empty]⟩
  | placed {sql : String} {files : FileSystem} (read : u.sourceText fs = .ok sql)
      (verdict : validator sql = .ok ())
      (written : fs.writeText u.program (Program.render u sql).source = .ok files) :
    Produced validator u fs ⟨.ok (Program.render u sql), files,
      [.called (.validator u.name sql) (.ok ()) .empty]⟩

theorem produced (validator : Validator) (u : BuildUnit) (fs : FileSystem) :
    Produced validator u fs (u.produce validator fs) := by
  rw [produce, check]
  cases hread : u.sourceText fs with
  | error cause => exact .unread hread
  | ok sql =>
    cases hverdict : validator sql with
    | error reason =>
      simp only [hverdict]
      exact .refused hread hverdict
    | ok _ =>
      have hpath : (Program.render u sql).path = u.program := rfl
      cases hwritten : fs.writeText u.program (Program.render u sql).source with
      | error cause =>
        simp only [hverdict, Step.andThen, place, hpath, hwritten]
        exact .unwritten hread hverdict hwritten
      | ok files =>
        simp only [hverdict, Step.andThen, place, hpath, hwritten]
        exact .placed hread hverdict hwritten

theorem Produced.error {step : Step Program} (h : Produced validator u fs step) {e : BuildError}
    (he : step.result = .error e) : step = ⟨.error e, fs, step.events⟩ := by
  cases h with
  | placed => cases he
  | _ =>
    cases he
    rfl

theorem Produced.ok {step : Step Program} (h : Produced validator u fs step) {program : Program}
    (hok : step.result = .ok program) :
    ∃ sql, u.sourceText fs = .ok sql ∧ validator sql = .ok () ∧ program = Program.render u sql ∧
      fs.writeText program.path program.source = .ok step.files ∧
      step.events = [.called (.validator u.name sql) (.ok ()) .empty] := by
  cases h with
  | placed read verdict written =>
    cases hok
    exact ⟨_, read, verdict, rfl, written, rfl⟩
  | _ => cases hok

/-- The only thing that happens meanwhile is that the validator is asked about the text. -/
theorem Produced.asked {step : Step Program} (h : Produced validator u fs step) {event : Event}
    (hevent : event ∈ step.events) : ∃ sql, u.sourceText fs = .ok sql ∧
      event = .called (.validator u.name sql) (validator sql) .empty := by
  cases h with
  | unread => cases hevent
  | refused read verdict =>
    cases List.mem_singleton.mp hevent
    exact ⟨_, read, by rw [verdict]⟩
  | unwritten read verdict =>
    cases List.mem_singleton.mp hevent
    exact ⟨_, read, by rw [verdict]⟩
  | placed read verdict =>
    cases List.mem_singleton.mp hevent
    exact ⟨_, read, by rw [verdict]⟩

/-- A program is generated exactly if the text is read and is a query, and the program can be
written. -/
theorem generate_eq_ok {files : FileSystem} {program : Program} :
    u.generate validator fs = .ok (program, files) ↔
      ∃ sql, u.sourceText fs = .ok sql ∧ validator sql = .ok () ∧ program = Program.render u sql ∧
        fs.writeText program.path program.source = .ok files := by
  have hproduced := produced validator u fs
  rw [generate]
  constructor
  · intro h
    obtain ⟨given, hok, hpair⟩ := ok_of_map h
    obtain ⟨sql, hread, hvalid, hprogram, hwritten, -⟩ := hproduced.ok hok
    cases hpair
    exact ⟨sql, hread, hvalid, hprogram, hwritten⟩
  · rintro ⟨sql, hread, hvalid, rfl, hwritten⟩
    simp only [produce, check, hread, hvalid, Step.andThen, place, hwritten]
    rfl

/-! ### Building -/

/-- To build a unit ends with the error that its program is not produced for, or it calls the
compiler behind the question to the validator. -/
theorem build_cases (help : Collaborators) (u : BuildUnit) (fs : FileSystem) :
    (∃ e events, Produced help.validator u fs ⟨.error e, fs, events⟩ ∧
      u.build help fs = ⟨.error e, fs, events⟩) ∨
    ∃ sql written, u.sourceText fs = .ok sql ∧ help.validator sql = .ok () ∧
      fs.writeText u.program (Program.render u sql).source = .ok written ∧
      u.build help fs =
        let reaction := help.toolchain u.program u.artifact written
        ⟨judge "compiler could not be started: " (.notCompiled u.name) reaction.result,
          reaction.files,
          [.called (.validator u.name sql) (.ok ()) .empty,
            .called (.compiler u.program u.artifact) reaction.result reaction.output]⟩ := by
  have hproduced := produced help.validator u fs
  rw [build]
  cases hresult : (u.produce help.validator fs).result with
  | error e =>
    left
    have hstep := hproduced.error hresult
    rw [hstep] at hproduced
    refine ⟨e, _, hproduced, ?_⟩
    rw [Step.andThen_error hresult, hstep]
  | ok program =>
    right
    obtain ⟨sql, hread, hvalid, rfl, hwritten, hevents⟩ := hproduced.ok hresult
    refine ⟨sql, _, hread, hvalid, hwritten, ?_⟩
    rw [Step.andThen_ok hresult, hevents]
    rfl

end BuildUnit

end QueryBuild

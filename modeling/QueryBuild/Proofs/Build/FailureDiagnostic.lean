import QueryBuild.Proofs.Build.Failure
import QueryBuild.Proofs.Discovery.Scan
/-!
# The diagnostic of a failure

The diagnostic of a failed phase names the failed unit and lists the units that were not reached.
The file that it points to is told by the error: the source if that cannot be read or is no query,
the program if that cannot be written, and none if a process failed.
-/

namespace QueryBuild

namespace BuildError

variable {e : BuildError} {u : BuildUnit} {kind : Phase} {file : Option Path}

/-- The diagnostic of an error names the unit and points to the file that the error is about. -/
theorem ArisesAt.toDiagnostic (h : e.ArisesAt u kind file) :
    e.toDiagnostic.severity = .error ∧ e.toDiagnostic.unit = some u.name ∧
      e.toDiagnostic.message = e.text ∧ e.toDiagnostic.location = file.map Path.text := by
  cases h <;> exact ⟨rfl, rfl, rfl, rfl⟩

/-- The error is about the source exactly if that cannot be read or is no query. -/
theorem ArisesAt.source_iff (h : e.ArisesAt u kind file) (hprogram : u.program ≠ u.source) :
    file.map Path.text = some u.source.text ↔
      (∃ cause, e = .inaccessible u.name u.source cause) ∨
        ∃ reason, e = .invalid u.name ⟨reason, some u.source⟩ := by
  have htext : u.program.text ≠ u.source.text := fun heq => hprogram (congrArg Path.mk heq)
  cases h with
  | inaccessible cause => simp
  | invalid reason => simp
  | notGenerated cause => simp [htext]
  | notCompiled reason stderr => simp
  | notExecuted reason stderr => simp

end BuildError

theorem Path.getLast?_join (p : Path) {name : String} (hname : name ≠ "") :
    (p.join name).text.toList.getLast? = name.toList.getLast? := by
  have hchars : name.toList ≠ [] := fun heq => hname (String.toList_inj.mp heq)
  rw [Path.join]
  split
  · rfl
  · split
    · rw [String.toList_append, List.getLast?_append_of_ne_nil _ hchars]
    · rw [String.toList_append, List.getLast?_append_of_ne_nil _ hchars]

theorem getLast?_extended (name : String) {extension : String} (hextension : extension ≠ "") :
    (name ++ "." ++ extension).toList.getLast? = extension.toList.getLast? := by
  have hchars : extension.toList ≠ [] := fun heq => hextension (String.toList_inj.mp heq)
  rw [String.toList_append, List.getLast?_append_of_ne_nil _ hchars]

theorem BuildUnit.getLast?_program (u : BuildUnit) :
    u.program.text.toList.getLast? = some 'p' := by
  rw [program, sibling, Path.getLast?_join _ (by simp), getLast?_extended _ (by decide)]
  rfl

theorem UnitGraph.FoundAs.getLast?_source {directory : Path} {name : FileName} {u : BuildUnit}
    (h : FoundAs directory name u) :
    u.source.text.toList.getLast?.map Char.toLower = some 'l' := by
  obtain ⟨hsource, stem, hstem, rfl⟩ := h
  obtain ⟨extension, rfl, hlower, -⟩ := FileName.eq_ofText_of_isSource hsource hstem
  rw [BuildUnit.ofSource, FileName.shown_ofText, Path.getLast?_join _ (by simp),
    getLast?_extended _ (FileName.extension_of_lower hlower).1, ← List.getLast?_map,
    ← String.toList_map, hlower]
  rfl

/-- The program of a discovered unit is not its source, since they end in different letters. -/
theorem UnitGraph.FoundAs.program_ne_source {directory : Path} {name : FileName} {u : BuildUnit}
    (h : FoundAs directory name u) : u.program ≠ u.source := by
  intro heq
  have hending := h.getLast?_source
  rw [← heq, u.getLast?_program] at hending
  exact absurd hending (by decide)

namespace BuildPlan

variable {plan : BuildPlan} {help : Collaborators}

theorem arisesAt_of_failure (force : Bool) {files : FileSystem} {f : BuildFailure}
    (hfail : (plan.compile help force files).outcome = .error f ∨
      (plan.run help files).outcome = .error f ∨
      (plan.build help force files).outcome = .error f) :
    ∃ u ∈ plan.order, ∃ file, f.error.ArisesAt u f.phase file := by
  have hcompile : ∀ {f}, (plan.compile help force files).outcome = .error f →
      ∃ u ∈ plan.order, ∃ file, f.error.ArisesAt u f.phase file := by
    intro f hf
    obtain ⟨done, u, rest, completed, e, horder, -, hstop, -, rfl⟩ := phase_stops hf
    exact ⟨u, by simp [horder], BuildUnit.arisesAt_of_compile hstop⟩
  have hrun : ∀ {f files}, (plan.run help files).outcome = .error f →
      ∃ u ∈ plan.order, ∃ file, f.error.ArisesAt u f.phase file := by
    intro f files hf
    obtain ⟨done, u, rest, completed, e, horder, -, hstop, -, rfl⟩ := phase_stops hf
    exact ⟨u, by simp [horder], BuildUnit.arisesAt_of_run hstop⟩
  rcases hfail with hfail | hfail | hfail
  · exact hcompile hfail
  · exact hrun hfail
  · rw [build] at hfail
    split at hfail
    · exact hcompile hfail
    · obtain ⟨later, hlater, rfl⟩ := BuildResult.error_of_after hfail
      obtain ⟨u, hu, file, harises⟩ := hrun hlater
      exact ⟨u, hu, file, harises⟩

/-- The failure of a phase, on whatever plan: it arises at a unit of the plan, and its diagnostic is
an error that names this unit, has the words of the failure, and lists the units that were not
reached. It points to the file that the error is about, if there is one. That is the source of the
unit exactly if the source cannot be read or is no query. -/
theorem diagnostic_of_failure (force : Bool) {files : FileSystem} {f : BuildFailure}
    (hfail : (plan.compile help force files).outcome = .error f ∨
      (plan.run help files).outcome = .error f ∨
      (plan.build help force files).outcome = .error f) :
    ∃ u ∈ plan.order, ∃ file, f.error.ArisesAt u f.phase file ∧ f.unit = some u.name ∧
      f.toDiagnostic.severity = .error ∧ f.toDiagnostic.unit = some u.name ∧
      f.toDiagnostic.message = f.text ∧ f.toDiagnostic.impact = f.unreached ∧
      f.toDiagnostic.location = file.map Path.text ∧
      ∀ extract fs path, (resolveWith extract fs path).2 = .ok plan →
        (f.toDiagnostic.location = some u.source.text ↔
          (∃ cause, f.error = .inaccessible u.name u.source cause) ∨
            ∃ reason, f.error = .invalid u.name ⟨reason, some u.source⟩) := by
  obtain ⟨u, hu, file, harises⟩ := arisesAt_of_failure force hfail
  obtain ⟨hseverity, hunit, hmessage, hlocation⟩ := harises.toDiagnostic
  refine ⟨u, hu, file, harises, harises.unit, hseverity, hunit, hmessage, rfl, hlocation, ?_⟩
  intro extract fs path hplan
  have hresolved := resolved_of_resolveWith hplan
  obtain ⟨_, _, -, -, hfound⟩ := hresolved.linked.found
  obtain ⟨name, -, hfoundAs⟩ := hfound u ((hresolved.mem_order u).mp hu)
  have hlocated : f.toDiagnostic.location = file.map Path.text := hlocation
  rw [hlocated]
  exact harises.source_iff hfoundAs.program_ne_source

namespace Sample

/-- What a run without artifacts fails with. -/
def missing : BuildFailure :=
  .atUnit pair .run first (.notExecuted "a" "artifact /w/a not found; compile first" "") [second]

theorem run_pair : (pair.run idle files).outcome = .error missing :=
  congrArg BuildResult.outcome (phase_cons_error run_first [second])

end Sample

/-- A run without artifacts has a diagnostic for a unit, which does not point to its source. -/
theorem diagnostic_of_missing_artifact :
    (resolveWith Reference.names Sample.files ⟨"/w"⟩).2 = .ok Sample.pair ∧
      (Sample.pair.run Sample.idle Sample.files).outcome = .error Sample.missing ∧
      ∃ u ∈ Sample.pair.order, Sample.missing.unit = some u.name ∧
        Sample.missing.toDiagnostic.unit = some u.name ∧
        Sample.missing.toDiagnostic.impact = Sample.missing.unreached ∧
        Sample.missing.toDiagnostic.location ≠ some u.source.text := by
  obtain ⟨u, hu, file, -, hfailed, -, hunit, -, himpact, -, hsource⟩ :=
    diagnostic_of_failure false (.inr (.inl Sample.run_pair))
  refine ⟨Sample.resolve_files, Sample.run_pair, u, hu, hfailed, hunit, himpact, ?_⟩
  rw [Ne, hsource _ _ _ Sample.resolve_files, not_or]
  constructor
  · rintro ⟨cause, herror⟩
    cases herror
  · rintro ⟨reason, herror⟩
    cases herror

/-- The failed unit has a source, but the diagnostic points to no file. -/
theorem missing_artifact_without_location :
    (resolveWith Reference.names Sample.files ⟨"/w"⟩).2 = .ok Sample.pair ∧
      (Sample.pair.run Sample.idle Sample.files).outcome = .error Sample.missing ∧
      Sample.first ∈ Sample.pair.order ∧ Sample.missing.unit = some Sample.first.name ∧
      Sample.missing.toDiagnostic.location = none :=
  ⟨Sample.resolve_files, Sample.run_pair, by decide, rfl, rfl⟩

end BuildPlan

end QueryBuild

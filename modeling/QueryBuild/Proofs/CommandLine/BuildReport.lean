import QueryBuild.Proofs.Build.CompileThenRun
import QueryBuild.Proofs.CommandLine.Ending
/-!
# What a build reports

The report of a command that builds accounts for every unit of the build order, in each of its
phases: a unit is on record, or it is the one that the only diagnostic is about, or it is named
there as not reached. A phase has its records behind those of the phases in front of it, so the
accounts of phases one behind the other can be put together.
-/

namespace QueryBuild

/-- The phase in which an action is taken. -/
def UnitAction.phase : UnitAction → Phase
  | compiled | upToDate => .compile
  | executed => .run

/-- The phase and the unit that a record is about. -/
def UnitRecord.entry (r : UnitRecord) : Phase × String :=
  (r.action.phase, r.name)

/-- What the records of a phase are about if it did its work on some units. -/
def Phase.entries (phase : Phase) (names : List String) : List (Phase × String) :=
  names.map fun name => (phase, name)

namespace BuildError

theorem unit_toDiagnostic {e : BuildError} {name : String} (h : e.unit = some name) :
    e.toDiagnostic.unit = some name := by
  cases e with
  | unordered cause =>
    cases cause with
    | cyclic cycle => exact h
    | _ => cases h
  | _ => exact h

end BuildError

namespace BuildUnit

theorem entry_of_compile {help : Collaborators} {force : Bool} {u : BuildUnit} {fs : FileSystem}
    {r : UnitRecord} (h : (compile help force u fs).result = .ok r) :
    r.entry = (.compile, u.name) := by
  rw [compile] at h
  split at h
  · cases h
  · split at h
    · cases h
      rfl
    · obtain ⟨-, -, rfl⟩ := ok_of_map h
      rfl

theorem entry_of_run {help : Collaborators} {u : BuildUnit} {fs : FileSystem} {r : UnitRecord}
    (h : (run help u fs).result = .ok r) : r.entry = (.run, u.name) := by
  obtain ⟨hname, haction⟩ := Prod.mk.inj (recorded_of_run h)
  rw [UnitRecord.entry, hname, haction]
  rfl

end BuildUnit

namespace BuildPlan

variable {plan : BuildPlan} {help : Collaborators} {force : Bool} {fs : FileSystem}

/-- The outcome of some phases accounts for the units of a plan. If all is done, every phase has the
units on record in build order. Else one phase has failed; those in front of it have the units on
record, and of this one the units on record, the failed one and those not reached are the units. -/
def Accounts (plan : BuildPlan) (phases : List Phase) :
    Except BuildFailure (List UnitRecord) → Prop
  | .ok records => records.map UnitRecord.entry = phases.flatMap (·.entries plan.names)
  | .error f => ∃ earlier later reached failed, phases = earlier ++ f.phase :: later ∧
      f.unit = some failed ∧
      f.completed.map UnitRecord.entry =
        earlier.flatMap (·.entries plan.names) ++ f.phase.entries reached ∧
      (reached ++ failed :: f.unreached).Perm plan.names

theorem unreached_atUnit (plan : BuildPlan) (kind : Phase) (u : BuildUnit) (e : BuildError)
    (rest : List BuildUnit) :
    (BuildFailure.atUnit plan kind u e rest).unreached.Perm (rest.map BuildUnit.name) := by
  obtain ⟨hneeding, hothers⟩ := plan.dependents_names u rest
  have hlist : (BuildFailure.atUnit plan kind u e rest).unreached =
      (plan.dependents u.name rest).1.map BuildUnit.name ++
        (plan.dependents u.name rest).2.map BuildUnit.name := rfl
  rw [hlist, hneeding, hothers]
  exact List.filter_append_perm _ _

/-- A phase accounts for the units if the records of its work are about the phase and the unit. -/
theorem accounts_phase {kind : Phase} {step : BuildUnit → FileSystem → Step UnitRecord}
    (hnames : NamesUnit step)
    (hentry : ∀ u fs r, (step u fs).result = .ok r → r.entry = (kind, u.name)) (fs : FileSystem) :
    plan.Accounts [kind] (plan.phase kind step plan.order fs).outcome := by
  have hentries (units : List BuildUnit) :
      units.map (fun u => (kind, u.name)) = kind.entries (units.map BuildUnit.name) :=
    (List.map_map ..).symm
  cases houtcome : (plan.phase kind step plan.order fs).outcome with
  | ok records =>
    rw [Accounts, map_phase hentry houtcome, hentries, List.flatMap_singleton]
    rfl
  | error f =>
    obtain ⟨done, u, rest, completed, e, hsplit, hdone, hstop, -, rfl⟩ := phase_stops houtcome
    refine ⟨[], [], done.map BuildUnit.name, u.name, rfl, hnames.error u _ e hstop, ?_, ?_⟩
    · rw [BuildFailure.completed_after_atUnit, map_phase hentry hdone, hentries]
      rfl
    · rw [names_split hsplit]
      exact ((unreached_atUnit plan kind u e rest).cons u.name).append_left _

/-- A phase that fails accounts for the units although more phases were to come. -/
theorem Accounts.stopped {phases : List Phase} {f : BuildFailure}
    (h : plan.Accounts phases (.error f)) (more : List Phase) :
    plan.Accounts (phases ++ more) (.error f) := by
  obtain ⟨earlier, later, reached, failed, rfl, hunit, hentries, hperm⟩ := h
  exact ⟨earlier, later ++ more, reached, failed, by simp, hunit, hentries, hperm⟩

/-- Phases account for the units behind others that are done. -/
theorem Accounts.after {phases more : List Phase} {records : List UnitRecord}
    (hdone : plan.Accounts phases (.ok records)) {r : BuildResult}
    (h : plan.Accounts more r.outcome) (events : List Event) :
    plan.Accounts (phases ++ more) (r.after records events).outcome := by
  rw [Accounts] at hdone
  rw [BuildResult.after]
  cases houtcome : r.outcome with
  | ok last =>
    rw [houtcome, Accounts] at h
    rw [Accounts, List.map_append, hdone, h, List.flatMap_append]
  | error f =>
    rw [houtcome] at h
    obtain ⟨earlier, later, reached, failed, rfl, hunit, hentries, hperm⟩ := h
    refine ⟨phases ++ earlier, later, reached, failed, by simp [BuildFailure.after], hunit, ?_,
      hperm⟩
    rw [BuildFailure.after, List.map_append, hdone, hentries, List.flatMap_append,
      List.append_assoc]

theorem accounts_compile (plan : BuildPlan) (help : Collaborators) (force : Bool)
    (fs : FileSystem) : plan.Accounts [.compile] (plan.compile help force fs).outcome :=
  accounts_phase (BuildUnit.namesUnit_compile help force) (fun _ _ _ => BuildUnit.entry_of_compile)
    fs

theorem accounts_run (plan : BuildPlan) (help : Collaborators) (fs : FileSystem) :
    plan.Accounts [.run] (plan.run help fs).outcome :=
  accounts_phase (BuildUnit.namesUnit_run help) (fun _ _ _ => BuildUnit.entry_of_run) fs

theorem accounts_build (plan : BuildPlan) (help : Collaborators) (force : Bool)
    (fs : FileSystem) : plan.Accounts [.compile, .run] (plan.build help force fs).outcome := by
  have hcompile := accounts_compile plan help force fs
  cases houtcome : (plan.compile help force fs).outcome with
  | error f =>
    rw [houtcome] at hcompile
    rw [build_of_error houtcome, houtcome]
    exact hcompile.stopped [.run]
  | ok records =>
    rw [houtcome] at hcompile
    rw [build_of_ok houtcome]
    exact hcompile.after (accounts_run plan help _) _

end BuildPlan

namespace CommandLine

/-- The phases that a task builds in. -/
def Task.phases : Task → List Phase
  | compile _ _ => [.compile]
  | run _ => [.run]
  | all _ _ => [.compile, .run]
  | plan _ _ | codegen _ => []

/-- What a task builds with a plan. -/
def Task.build (help : Collaborators) (p : BuildPlan) (fs : FileSystem) : Task → BuildResult
  | compile _ force => p.compile help force fs
  | run _ => p.run help fs
  | all _ force => p.build help force fs
  | plan _ _ | codegen _ => ⟨.ok [], fs, []⟩

theorem accounts_task (task : Task) (help : Collaborators) (plan : BuildPlan) (fs : FileSystem) :
    plan.Accounts task.phases (task.build help plan fs).outcome := by
  cases task with
  | compile directory force => exact plan.accounts_compile help force fs
  | run directory => exact plan.accounts_run help fs
  | all directory force => exact plan.accounts_build help force fs
  | plan directory target => rfl
  | codegen file => rfl

section Perform

variable {task : Task} {help : Collaborators} {report : Report} {fs : FileSystem}

theorem perform_error {e : BuildError} (hbuilds : task.phases ≠ [])
    (h : (BuildPlan.resolve fs task.directory).2 = .error e) :
    (task.perform help report fs).report = report.addDiagnostic e.toDiagnostic := by
  cases task with
  | plan directory target => exact absurd rfl hbuilds
  | codegen file => exact absurd rfl hbuilds
  | _ => exact (withPlan_error report h _).1

theorem perform_ok {plan : BuildPlan} (hbuilds : task.phases ≠ [])
    (h : (BuildPlan.resolve fs task.directory).2 = .ok plan) :
    (task.perform help report fs).report =
      (report.setOrder plan.names).addBuild (task.build help plan fs).outcome := by
  cases task with
  | plan directory target => exact absurd rfl hbuilds
  | codegen file => exact absurd rfl hbuilds
  | _ => exact (performBuild_ok h _).1

theorem not_breaksOff (hbuilds : task.phases ≠ []) : ¬ task.BreaksOff fs := by
  cases task with
  | plan directory target => exact absurd rfl hbuilds
  | _ => exact id

end Perform

theorem reported_error {task : Task} (hbuilds : task.phases ≠ []) (help : Collaborators)
    {fs : FileSystem} {e : BuildError} (h : (BuildPlan.resolve fs task.directory).2 = .error e)
    (timestamp command directory : String) :
    let r := (task.perform help (Report.start timestamp command directory) fs).report
    r.order = [] ∧ r.units = [] ∧ r.diagnostics = [e.toDiagnostic] := by
  rw [perform_error hbuilds h]
  exact ⟨rfl, rfl, rfl⟩

/-- The report of a task that builds with a plan: the build order, and all that was done before the
end or the failure. -/
theorem reported_ok {task : Task} (hbuilds : task.phases ≠ []) (help : Collaborators)
    {fs : FileSystem} {plan : BuildPlan}
    (h : (BuildPlan.resolve fs task.directory).2 = .ok plan)
    (timestamp command directory : String) :
    let r := (task.perform help (Report.start timestamp command directory) fs).report
    r.order = plan.names ∧
      (∀ records, (task.build help plan fs).outcome = .ok records →
        r.units = records ∧ r.diagnostics = []) ∧
      ∀ f, (task.build help plan fs).outcome = .error f →
        r.units = f.completed ∧ r.diagnostics = [f.toDiagnostic] := by
  rw [perform_ok hbuilds h]
  cases houtcome : (task.build help plan fs).outcome with
  | ok records =>
    obtain ⟨hunits, hdiagnostics, horder⟩ :=
      ((Report.start timestamp command directory).setOrder plan.names).addUnits_eq records
    refine ⟨horder, ?_, by simp⟩
    rintro done ⟨rfl⟩
    exact ⟨hunits, hdiagnostics⟩
  | error f =>
    obtain ⟨hunits, hdiagnostics, horder⟩ :=
      ((Report.start timestamp command directory).setOrder plan.names).addBuild_error_eq f
    refine ⟨horder, by simp, ?_⟩
    rintro failure ⟨rfl⟩
    exact ⟨hunits, hdiagnostics⟩

theorem severity_reported {task : Task} (hbuilds : task.phases ≠ []) (help : Collaborators)
    (fs : FileSystem) (timestamp command directory : String) :
    ∀ d ∈ (task.perform help (Report.start timestamp command directory) fs).report.diagnostics,
      d.severity = .error := by
  intro d hd
  cases hresolve : (BuildPlan.resolve fs task.directory).2 with
  | error e =>
    rw [(reported_error hbuilds help hresolve ..).2.2] at hd
    rw [List.mem_singleton.mp hd]
    exact e.severity_toDiagnostic
  | ok plan =>
    obtain ⟨-, hdone, hfailed⟩ := reported_ok hbuilds help hresolve timestamp command directory
    cases houtcome : (task.build help plan fs).outcome with
    | ok records =>
      rw [(hdone records houtcome).2] at hd
      cases hd
    | error f =>
      rw [(hfailed f houtcome).2] at hd
      rw [List.mem_singleton.mp hd]
      exact f.error.severity_toDiagnostic

/-- A command that builds accounts in its report for every unit. Without a build order there is only
the one error in it. With one, either all is done and every phase has all units on record in their
order; or a phase failed at a unit that the one diagnostic is about, the phases in front of it have
all units on record, and its own records, the failed unit and those that the diagnostic lists are
all units, each of them once. The counters are those of the lists, and the command succeeds exactly
if there is no diagnostic. -/
theorem build_report_accounts (i : Invocation) (help : Collaborators) (timestamp errors : String)
    (fs : FileSystem) (hbuilds : i.task.phases ≠ [])
    (hsaved : ∃ saved, saveReport i (i.carryOut help timestamp fs).report
      (i.carryOut help timestamp fs).files = .ok saved) :
    let p := i.carryOut help timestamp fs
    let r := p.report
    (∀ e, (BuildPlan.resolve fs i.task.directory).2 = .error e →
      r.order = [] ∧ r.units = [] ∧ ∃ d, r.diagnostics = [d] ∧ d.severity = .error) ∧
    (∀ plan, (BuildPlan.resolve fs i.task.directory).2 = .ok plan →
      r.order = plan.names ∧ r.order.Nodup ∧
      (∀ records, (i.task.build help plan fs).outcome = .ok records →
        r.diagnostics = [] ∧ r.units = records ∧
        r.units.map UnitRecord.entry = i.task.phases.flatMap (·.entries r.order)) ∧
      ∀ f, (i.task.build help plan fs).outcome = .error f →
        ∃ d failed earlier later reached, r.diagnostics = [d] ∧ d.severity = .error ∧
          f.unit = some failed ∧ d.unit = some failed ∧
          i.task.phases = earlier ++ f.phase :: later ∧
          r.units.map UnitRecord.entry =
            earlier.flatMap (·.entries r.order) ++ f.phase.entries reached ∧
          (reached ++ failed :: d.impact).Perm r.order) ∧
    r.summary = .census r.units r.diagnostics ∧
    ((conclude i errors p).status = 0 ↔ r.diagnostics = []) := by
  intro p r
  have hcounted : r.Counted := counted_perform (Report.counted_start _ _ _) i.task
  have hends : p.trouble = none := (perform_trouble i.task help _ fs).mpr (not_breaksOff hbuilds)
  have hstatus := (status_of_saved errors hends hcounted hsaved).2
  have herrors : ∀ d ∈ r.diagnostics, d.severity = .error := severity_reported hbuilds help fs _ _ _
  refine ⟨?_, ?_, hcounted, ?_⟩
  · intro e he
    obtain ⟨horder, hunits, hdiagnostics⟩ : r.order = [] ∧ r.units = [] ∧ _ :=
      reported_error hbuilds help he _ _ _
    exact ⟨horder, hunits, e.toDiagnostic, hdiagnostics, e.severity_toDiagnostic⟩
  · intro plan hplan
    obtain ⟨horder, hdone, hfailed⟩ : r.order = plan.names ∧ _ :=
      reported_ok hbuilds help hplan _ _ _
    have haccounts := accounts_task i.task help plan fs
    refine ⟨horder, horder ▸ (BuildPlan.resolved_of_resolveWith hplan).nodup, ?_, ?_⟩
    · intro records hrecords
      obtain ⟨hunits, hdiagnostics⟩ := hdone records hrecords
      rw [hrecords] at haccounts
      refine ⟨hdiagnostics, hunits, ?_⟩
      rw [horder, show r.units = _ from hunits]
      exact haccounts
    · intro f hf
      obtain ⟨hunits, hdiagnostics⟩ := hfailed f hf
      rw [hf] at haccounts
      obtain ⟨earlier, later, reached, failed, hphases, hunit, hentries, hperm⟩ := haccounts
      refine ⟨f.toDiagnostic, failed, earlier, later, reached, hdiagnostics,
        f.error.severity_toDiagnostic, hunit, BuildError.unit_toDiagnostic hunit, hphases, ?_, ?_⟩
      · rw [horder, show r.units = _ from hunits]
        exact hentries
      · rw [horder]
        exact hperm
  · rw [hstatus]
    constructor
    · intro hnone
      exact List.eq_nil_iff_forall_not_mem.mpr fun d hd => hnone ⟨d, hd, herrors d hd⟩
    · rintro hnil ⟨d, hd, -⟩
      rw [hnil] at hd
      cases hd

section Sample

open BuildPlan.Sample (files first second pair idle resolve_files run_first)

/-- Where nothing is compiled, a run reports the first unit as failed and the other as not
reached. -/
theorem run_reports_missing_artifact :
    let i : Invocation := ⟨none, false, none, .run ⟨"/w"⟩⟩
    let r := (i.carryOut idle "" files).report
    ∃ d failed reached, r.diagnostics = [d] ∧ d.unit = some failed ∧
      r.units.map UnitRecord.entry = Phase.entries .run reached ∧
      (reached ++ failed :: d.impact).Perm ["a", "b"] := by
  intro i r
  have hfail : (i.task.build idle pair files).outcome =
      .error (.atUnit pair .run first _ [second]) :=
    congrArg BuildResult.outcome (BuildPlan.phase_cons_error run_first [second])
  obtain ⟨-, hplan, -, -⟩ := build_report_accounts i idle "" "" files (by decide) ⟨_, rfl⟩
  obtain ⟨horder, -, -, hfailed⟩ := hplan _ resolve_files
  obtain ⟨d, failed, earlier, later, reached, hdiagnostics, -, -, hunit, hphases, hunits, hperm⟩ :=
    hfailed _ hfail
  rw [horder] at hperm
  refine ⟨d, failed, reached, hdiagnostics, hunit, ?_, hperm⟩
  cases earlier with
  | nil => exact hunits
  | cons phase earlier => simp [i, Task.phases] at hphases

end Sample

end CommandLine

end QueryBuild

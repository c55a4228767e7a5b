import QueryBuild.CommandLine.Session
import QueryBuild.Proofs.Build.Kept
import QueryBuild.Proofs.Files.View
import QueryBuild.Proofs.Report.Census
/-!
# How calls end

A call with settings performs its task and then writes the report that was asked for. Only a plan
can break off before that: when the unit that it is asked for is none of the directory, or when it
cannot be told of a unit whether its artifact is up to date. In every other case the report is there
at the end, and the status of the call says whether an error is in it.
-/

namespace QueryBuild

/-- The units that a plan shows: all of them, or what one unit needs. -/
def BuildPlan.shown (plan : BuildPlan) : Option String → Option (List BuildUnit)
  | none => some plan.order
  | some name => plan.targetOrder name

namespace CommandLine

/-- A plan that cannot be shown: the unit that it is asked for is none of the directory, or the
staleness of a unit to be shown cannot be told. -/
def Task.BreaksOff (fs : FileSystem) : Task → Prop
  | plan directory target => ∃ found, (BuildPlan.resolve fs directory).2 = .ok found ∧
      ((∃ name, target = some name ∧ found.discovered.unit? name = none) ∨
        ∃ units u e, found.shown target = some units ∧ u ∈ units ∧
          Staleness.ofUnit fs u = .error e)
  | compile _ _ | run _ | all _ _ | codegen _ => False

/-- What an invocation does with any collaborators, once its settings are loaded. -/
def Invocation.carryOut (i : Invocation) (help : Collaborators) (timestamp : String)
    (fs : FileSystem) : Performance :=
  i.task.perform help (Report.start timestamp i.task.name i.task.directory.text) fs

/-- The collaborators of a call with settings that were found. -/
def Provider.help (provide : Provider) (c : Circumstances) (settings : Settings) : Collaborators :=
  let environment := Host.EnvironmentFile.load c.files c.environment
  provide environment (settings.overrideCompiler (environment.lookup Settings.compilerVariable))

/-- What an invocation does with settings that were found. -/
def Circumstances.performance (c : Circumstances) (provide : Provider) (i : Invocation)
    (settings : Settings) : Performance :=
  i.carryOut (provide.help c settings) c.timestamp c.files

/-- A call that is understood and finds its settings concludes what its task does. -/
theorem call_eq_conclude (provide : Provider) {arguments : List String} {c : Circumstances}
    {i : Invocation} {settings : Settings} {found : Option Path}
    (hparse : Invocation.ofArguments arguments = .ok i)
    (hsettings : Settings.discover c.files i.settings (some i.task.directory) =
      .ok (settings, found)) :
    ∃ errors, callWith provide arguments c =
      conclude i errors (c.performance provide i settings) := by
  rw [callWith, hparse]
  simp only [Invocation.perform, hsettings]
  exact ⟨_, rfl⟩

/-! ### Concluding -/

theorem readText_of_writeText {fs fs' : FileSystem} {path : Path} {text : String}
    (hw : fs.writeText path text = .ok fs') : fs'.readText path = .ok text := by
  obtain ⟨-, location, executable, hfind⟩ := FileSystem.write_spec hw
  exact FileSystem.readText_of_find hfind

theorem readText_of_saveReport {i : Invocation} {r : Report} {fs files : FileSystem}
    {note : String} (hsave : saveReport i r fs = .ok (files, note)) {path : Path}
    (hpath : i.report = some path) : files.readText path = .ok r.toJson.text := by
  rw [saveReport, hpath] at hsave
  obtain ⟨files', hwrite, hpair⟩ := ok_of_map hsave
  cases hpair
  exact readText_of_writeText hwrite

section Conclude

variable {i : Invocation} (errors : String) {p : Performance}

theorem conclude_of_trouble {message : String} (htrouble : p.trouble = some message) :
    (conclude i errors p).status = 1 ∧ (conclude i errors p).files = p.files := by
  rw [conclude, htrouble]
  exact ⟨rfl, rfl⟩

theorem conclude_of_saved {files : FileSystem} {note : String} (htrouble : p.trouble = none)
    (hsave : saveReport i p.report p.files = .ok (files, note)) :
    (conclude i errors p).status = (if p.report.hasErrors then 1 else 0) ∧
      (conclude i errors p).files = files := by
  rw [conclude, htrouble]
  simp only [hsave]
  split
  · exact ⟨rfl, rfl⟩
  · exact ⟨rfl, rfl⟩

/-- A call whose task came to its end and whose report was saved fails exactly if the report has an
error. -/
theorem status_of_saved (htrouble : p.trouble = none) (hcounted : p.report.Counted)
    (hsaved : ∃ saved, saveReport i p.report p.files = .ok saved) :
    ((conclude i errors p).status = 1 ↔ ∃ d ∈ p.report.diagnostics, d.severity = .error) ∧
      ((conclude i errors p).status = 0 ↔ ¬ ∃ d ∈ p.report.diagnostics, d.severity = .error) := by
  obtain ⟨⟨files, note⟩, hsave⟩ := hsaved
  rw [(conclude_of_saved errors htrouble hsave).1, ← hcounted.hasErrors_iff]
  by_cases herrors : p.report.hasErrors = true
  · simp [herrors]
  · simp [herrors]

end Conclude

/-! ### What tasks leave -/

section Perform

variable {help : Collaborators} {report : Report} {fs : FileSystem} {directory : Path}

theorem withPlan_error (report : Report) {e : BuildError}
    (h : (BuildPlan.resolve fs directory).2 = .error e)
    (next : BuildPlan → Report → Performance) :
    (withPlan report directory fs next).report = report.addDiagnostic e.toDiagnostic ∧
      (withPlan report directory fs next).files = fs ∧
      (withPlan report directory fs next).trouble = none := by
  simp only [withPlan, h, and_self]

theorem withPlan_ok (report : Report) {plan : BuildPlan}
    (h : (BuildPlan.resolve fs directory).2 = .ok plan)
    (next : BuildPlan → Report → Performance) :
    (withPlan report directory fs next).report = (next plan (report.setOrder plan.names)).report ∧
      (withPlan report directory fs next).files =
        (next plan (report.setOrder plan.names)).files ∧
      (withPlan report directory fs next).trouble =
        (next plan (report.setOrder plan.names)).trouble := by
  simp only [withPlan, h, and_self]

/-- A plan is shown unless the staleness of one of its units cannot be told. -/
theorem planText_trouble (plan : BuildPlan) (fs : FileSystem) (place : Nat)
    (units : List BuildUnit) :
    (planText plan fs place units).2 = none ↔
      ∀ u ∈ units, ∀ e, Staleness.ofUnit fs u ≠ .error e := by
  induction units generalizing place with
  | nil => simp [planText]
  | cons u units ih =>
    rw [planText]
    cases hstate : Staleness.ofUnit fs u with
    | error e => simp [hstate]
    | ok state => simp [hstate, ih]

theorem shown_eq_none {plan : BuildPlan} {target : Option String} :
    plan.shown target = none ↔
      ∃ name, target = some name ∧ plan.discovered.unit? name = none := by
  cases target with
  | none => simp [BuildPlan.shown]
  | some name =>
    simp only [BuildPlan.shown, BuildPlan.targetOrder, Option.some.injEq, exists_eq_left']
    split <;> simp [*]

/-- A plan comes to its end if it has units to show whose staleness can be told. -/
theorem performPlan_ok (report : Report) {plan : BuildPlan}
    (h : (BuildPlan.resolve fs directory).2 = .ok plan)
    (target : Option String) :
    (performPlan target report directory fs).report = report.setOrder plan.names ∧
      (performPlan target report directory fs).files = fs ∧
      ((performPlan target report directory fs).trouble = none ↔
        ∃ units, plan.shown target = some units ∧ (planText plan fs 1 units).2 = none) := by
  cases target with
  | none => simp [performPlan, withPlan, h, BuildPlan.shown]
  | some name =>
    cases hunits : plan.targetOrder name with
    | none => simp [performPlan, withPlan, h, BuildPlan.shown, hunits]
    | some units => simp [performPlan, withPlan, h, BuildPlan.shown, hunits]

/-- Showing a plan changes no file, and it comes to its end unless it breaks off. -/
theorem performPlan_spec (target : Option String) (report : Report) (directory : Path)
    (fs : FileSystem) :
    (performPlan target report directory fs).files = fs ∧
      ((performPlan target report directory fs).trouble = none ↔
        ¬ (Task.plan directory target).BreaksOff fs) := by
  cases hresolve : (BuildPlan.resolve fs directory).2 with
  | error e =>
    obtain ⟨-, hfiles, htrouble⟩ := withPlan_error report hresolve _
    refine ⟨hfiles, iff_of_true htrouble ?_⟩
    simp [Task.BreaksOff, hresolve]
  | ok plan =>
    obtain ⟨-, hfiles, htrouble⟩ := performPlan_ok report hresolve target
    refine ⟨hfiles, htrouble.trans ?_⟩
    simp only [Task.BreaksOff, hresolve, Except.ok.injEq, exists_eq_left', planText_trouble,
      ← shown_eq_none]
    cases hshown : plan.shown target with
    | none => simp
    | some units => simp

theorem performBuild_ok {plan : BuildPlan} (h : (BuildPlan.resolve fs directory).2 = .ok plan)
    (phases : Phases) :
    (performBuild phases report directory fs).report =
        (report.setOrder plan.names).addBuild (phases.perform plan fs).outcome ∧
      (performBuild phases report directory fs).files = (phases.perform plan fs).files := by
  obtain ⟨hreport, hfiles, -⟩ := withPlan_ok report h _
  exact ⟨hreport, hfiles⟩

theorem performBuild_trouble (phases : Phases) (report : Report) (directory : Path)
    (fs : FileSystem) : (performBuild phases report directory fs).trouble = none := by
  cases hresolve : (BuildPlan.resolve fs directory).2 with
  | error e => exact (withPlan_error _ hresolve _).2.2
  | ok plan => exact (withPlan_ok _ hresolve _).2.2

theorem performCodegen_trouble (validator : Validator) (report : Report) (file : Path)
    (fs : FileSystem) : (performCodegen validator report file fs).trouble = none := by
  rw [performCodegen]
  split
  · rfl
  · split
    · rfl
    · rfl

theorem perform_trouble (task : Task) (help : Collaborators) (report : Report) (fs : FileSystem) :
    (task.perform help report fs).trouble = none ↔ ¬ task.BreaksOff fs := by
  cases task with
  | plan directory target => exact (performPlan_spec target report directory fs).2
  | codegen file => exact iff_of_true (performCodegen_trouble _ _ _ _) id
  | compile directory force => exact iff_of_true (performBuild_trouble _ _ _ _) id
  | run directory => exact iff_of_true (performBuild_trouble _ _ _ _) id
  | all directory force => exact iff_of_true (performBuild_trouble _ _ _ _) id

theorem files_of_breaksOff {task : Task} (h : task.BreaksOff fs) :
    (task.perform help report fs).files = fs := by
  cases task with
  | plan directory target => exact (performPlan_spec target report directory fs).1
  | _ => exact h.elim

theorem counted_performBuild (hcounted : report.Counted) (phases : Phases) :
    (performBuild phases report directory fs).report.Counted := by
  cases hresolve : (BuildPlan.resolve fs directory).2 with
  | error e =>
    rw [performBuild, (withPlan_error _ hresolve _).1]
    exact hcounted.addDiagnostic _
  | ok plan =>
    rw [(performBuild_ok hresolve phases).1]
    exact (hcounted.setOrder _).addBuild _

theorem counted_performPlan (hcounted : report.Counted) (target : Option String) :
    (performPlan target report directory fs).report.Counted := by
  cases hresolve : (BuildPlan.resolve fs directory).2 with
  | error e =>
    rw [performPlan, (withPlan_error _ hresolve _).1]
    exact hcounted.addDiagnostic _
  | ok plan =>
    rw [(performPlan_ok _ hresolve target).1]
    exact hcounted.setOrder _

theorem counted_performCodegen (hcounted : report.Counted) (validator : Validator) (file : Path) :
    (performCodegen validator report file fs).report.Counted := by
  rw [performCodegen]
  split
  · exact hcounted.addDiagnostic _
  · split
    · exact hcounted.addDiagnostic _
    · exact hcounted

theorem counted_perform (hcounted : report.Counted) (task : Task) :
    (task.perform help report fs).report.Counted := by
  cases task with
  | plan directory target => exact counted_performPlan hcounted target
  | codegen file => exact counted_performCodegen hcounted _ file
  | compile directory force => exact counted_performBuild hcounted _
  | run directory => exact counted_performBuild hcounted _
  | all directory force => exact counted_performBuild hcounted _

end Perform

theorem call_of_breaksOff (provide : Provider) {arguments : List String} {c : Circumstances}
    {i : Invocation} {settings : Settings} {found : Option Path}
    (hparse : Invocation.ofArguments arguments = .ok i)
    (hsettings : Settings.discover c.files i.settings (some i.task.directory) =
      .ok (settings, found))
    (hbreaks : i.task.BreaksOff c.files) :
    (callWith provide arguments c).status = 1 ∧ (callWith provide arguments c).files = c.files := by
  obtain ⟨errors, hcall⟩ := call_eq_conclude provide hparse hsettings
  have hends : (c.performance provide i settings).trouble = none ↔ ¬ i.task.BreaksOff c.files :=
    perform_trouble i.task _ _ c.files
  obtain ⟨message, hmessage⟩ := Option.ne_none_iff_exists'.mp fun h => hends.mp h hbreaks
  obtain ⟨hstatus, hfiles⟩ := conclude_of_trouble (i := i) errors hmessage
  rw [hcall]
  exact ⟨hstatus, hfiles.trans (files_of_breaksOff hbreaks)⟩

/-- Whoever helps with it, a call whose settings are loaded leaves the report that it is asked for at
a path that can be written, and its status is one exactly if the report has an error, unless its
task is a plan that breaks off: then the status is one, and no file is changed or made, the report
included. -/
theorem report_left_unless_plan_breaks_off (provide : Provider) {arguments : List String}
    {c : Circumstances} {i : Invocation} {path : Path} {settings : Settings} {found : Option Path}
    (hparse : Invocation.ofArguments arguments = .ok i) (hreport : i.report = some path)
    (hsettings : Settings.discover c.files i.settings (some i.task.directory) =
      .ok (settings, found))
    (hwritable : ∃ files, (c.performance provide i settings).files.writeText path
      (c.performance provide i settings).report.toJson.text = .ok files) :
    let r := (c.performance provide i settings).report
    let ending := callWith provide arguments c
    (¬ i.task.BreaksOff c.files → ending.files.readText path = .ok r.toJson.text ∧
      (ending.status = 1 ↔ ∃ d ∈ r.diagnostics, d.severity = .error) ∧
      (ending.status = 0 ↔ ¬ ∃ d ∈ r.diagnostics, d.severity = .error)) ∧
    (i.task.BreaksOff c.files → ending.status = 1 ∧ ending.files = c.files) := by
  intro r ending
  refine ⟨fun hends => ?_, call_of_breaksOff provide hparse hsettings⟩
  obtain ⟨errors, hcall⟩ := call_eq_conclude provide hparse hsettings
  have htrouble : (c.performance provide i settings).trouble = none :=
    (perform_trouble i.task _ _ c.files).mpr hends
  obtain ⟨files, hwrite⟩ := hwritable
  have hsave : saveReport i r (c.performance provide i settings).files = .ok (files,
      if i.verbose then "Report saved to: " ++ path.text ++ "\n" else "") := by
    rw [saveReport, hreport]
    simp only [r, hwrite]
    rfl
  have hcounted : r.Counted := counted_perform (Report.counted_start _ _ _) i.task
  have hfiles := (conclude_of_saved errors htrouble hsave).2
  rw [show ending = _ from hcall]
  refine ⟨?_, status_of_saved errors htrouble hcounted ⟨_, hsave⟩⟩
  rw [hfiles]
  exact readText_of_saveReport hsave hreport

/-! ### Plans of a directory with one unit -/

namespace Sample

open FileSystem
open BuildPlan.Sample (alone first lone resolve_alone resolve_lone sourceText_alone)

/-- There are neither settings nor a report in the directory. -/
structure Bare (fs : FileSystem) : Prop where
  workingDirectory : fs.workingDirectory = []
  root : fs.get? [] = some (.directory 0)
  directory : fs.find (Path.rooted ["w"]) = .ok ([FileName.ofText "w"], .directory 0)
  settings : fs.get? [FileName.ofText "w", FileName.ofText "sqlbuild.toml"] = none
  otherSettings : fs.get? [FileName.ofText "sqlbuild.toml"] = none
  report : fs.get? [FileName.ofText "w", FileName.ofText "out.json"] = none

theorem Bare.resolve_missing {fs : FileSystem} (h : Bare fs) {name : String}
    (hname : IsOrdinary name) (hnone : fs.get? [FileName.ofText "w", FileName.ofText name] = none)
    (hvalid : (Path.rooted ["w", name]).text.toList.contains '\x00' = false ∧
      (Path.rooted ["w", name]).text.utf8ByteSize + 1 ≤ pathLimit ∧
      name.utf8ByteSize ≤ nameLimit) :
    fs.resolve true (Path.rooted ["w", name]) =
      .ok ⟨[FileName.ofText "w", FileName.ofText name], none⟩ :=
  resolve_rooted_missing (by decide : ∀ n ∈ ["w"], IsOrdinary n) h.directory hname hnone hvalid true

theorem Bare.discover {fs : FileSystem} (h : Bare fs) : Settings.discover fs none (some ⟨"/w"⟩) =
    .ok (Settings.initial (Location.path fs.workingDirectory), none) := by
  have hjoin : (⟨"/w"⟩ : Path).join Settings.fileName = Path.rooted ["w", "sqlbuild.toml"] := by
    decide
  have hnear : fs.isFile (Path.rooted ["w", "sqlbuild.toml"]) = false := by
    rw [isFile, find, h.resolve_missing (by decide) h.settings (by decide)]
  have hhere : fs.isFile ⟨Settings.fileName⟩ = false := by
    have hstart : startOf Settings.fileName fs.workingDirectory = [] := by
      rw [h.workingDirectory]
      decide
    rw [isFile, find, resolve_of_walk ["sqlbuild.toml"] (by decide) (by decide) rfl, hstart,
      walk_last h.root (by decide) (by decide) (by decide) (by simp [h.otherSettings])]
    simp [h.otherSettings]
  have hnone : (Settings.candidates (some ⟨"/w"⟩)).find? fs.isFile = none := by
    simp only [Settings.candidates, Option.map_some, hjoin, Option.toList_some,
      List.singleton_append, List.find?_cons, hnear, hhere, List.find?_nil]
  rw [Settings.discover, hnone]
  rfl

theorem Bare.resolve_report {fs : FileSystem} (h : Bare fs) : fs.resolve true ⟨"/w/out.json"⟩ =
    .ok ⟨[FileName.ofText "w", FileName.ofText "out.json"], none⟩ := by
  have hpath : Path.rooted ["w", "out.json"] = ⟨"/w/out.json"⟩ := by decide
  rw [← hpath]
  exact h.resolve_missing (by decide) h.report (by decide)

theorem Bare.writable {fs : FileSystem} (h : Bare fs) (text : String) :
    ∃ files, fs.writeText ⟨"/w/out.json"⟩ text = .ok files := by
  have hname : namesDirectory ⟨"/w/out.json"⟩ = false := by decide
  simp [writeText, write, h.resolve_report, hname]

theorem Bare.report_missing {fs : FileSystem} (h : Bare fs) :
    fs.readText ⟨"/w/out.json"⟩ = .error .notFound := by
  simp [readText, FileSystem.read, find, h.resolve_report]

theorem bare_alone : Bare alone :=
  ⟨rfl, by cbv, by cbv, by cbv, by cbv, by cbv⟩

theorem staleness_alone : Staleness.ofUnit alone first = .ok .missing := by
  have hmissing := bare_alone.resolve_missing (by decide : IsOrdinary "a") (by cbv) (by decide)
  have hpath : Path.rooted ["w", "a"] = ⟨"/w/a"⟩ := by decide
  rw [hpath] at hmissing
  simp [Staleness.ofUnit, Staleness.check, modified, find, first, hmissing, Except.map]

/-- The artifact is a link that leads to itself. -/
def looped : FileSystem :=
  { alone with
    entries := alone.entries ++ [([FileName.ofText "w", FileName.ofText "a"], .link "a")] }

theorem bare_looped : Bare looped :=
  ⟨rfl, by cbv, by cbv, by cbv, by cbv, by cbv⟩

theorem resolve_looped : (BuildPlan.resolve looped ⟨"/w"⟩).2 = .ok lone := by
  have hfind : looped.find first.source =
      .ok ([FileName.ofText "w", FileName.ofText "a.sql"], .file "SELECT 1".toUTF8 1 false) :=
    find_of_walk ["w", "a.sql"] (by decide) (by decide) (by cbv)
  exact resolve_lone (by cbv) (by cbv) (readText_of_find hfind)

theorem staleness_looped : Staleness.ofUnit looped first = .error .linkLoop := by
  have hfind : looped.find first.artifact = .error .linkLoop := by
    rw [find, resolve_of_walk ["w", "a"] (by decide) (by decide) rfl]
    cbv
  rw [Staleness.ofUnit, Staleness.check, modified, hfind]
  rfl

def arguments : List String :=
  ["plan", "/w", "--report", "/w/out.json"]

def invocation : Invocation :=
  ⟨none, false, some ⟨"/w/out.json"⟩, .plan ⟨"/w"⟩ none⟩

theorem ofArguments_arguments : Invocation.ofArguments arguments = .ok invocation := by cbv

theorem Bare.writable_after {fs : FileSystem} (h : Bare fs) (settings : Settings) :
    let p := (Circumstances.mk [] "" fs).performance Host.collaborators invocation settings
    ∃ files, p.files.writeText ⟨"/w/out.json"⟩ p.report.toJson.text = .ok files := by
  intro p
  have hfiles : p.files = fs := (performPlan_spec none _ ⟨"/w"⟩ fs).1
  rw [hfiles]
  exact h.writable _

end Sample

/-- A plan of units whose staleness can be told leaves its report. -/
theorem plan_leaves_report :
    let ending := call Sample.arguments ⟨[], "", BuildPlan.Sample.alone⟩
    ending.status = 0 ∧ ∃ text, ending.files.readText ⟨"/w/out.json"⟩ = .ok text := by
  intro ending
  have h := Sample.bare_alone
  obtain ⟨hends, -⟩ := report_left_unless_plan_breaks_off Host.collaborators
    (c := ⟨[], "", BuildPlan.Sample.alone⟩) Sample.ofArguments_arguments rfl h.discover
    (h.writable_after _)
  have hnot : ¬ Sample.invocation.task.BreaksOff BuildPlan.Sample.alone := by
    rintro ⟨plan, hplan, ⟨name, hname, -⟩ | ⟨units, u, e, hshown, hu, he⟩⟩
    · cases hname
    · cases BuildPlan.Sample.resolve_alone.symm.trans hplan
      cases hshown
      cases List.mem_singleton.mp hu
      cases Sample.staleness_alone.symm.trans he
  obtain ⟨hread, -, hstatus⟩ := hends hnot
  refine ⟨hstatus.mpr ?_, _, hread⟩
  have hreport := (performPlan_ok (Report.start "" "plan" "/w")
    BuildPlan.Sample.resolve_alone none).1
  rintro ⟨d, hd, -⟩
  have hd' : d ∈ (performPlan none (Report.start "" "plan" "/w") ⟨"/w"⟩
    BuildPlan.Sample.alone).report.diagnostics := hd
  rw [hreport] at hd'
  cases hd'

/-- A plan that meets an artifact it cannot look at leaves no report, although there is a place for
one. -/
theorem plan_leaves_no_report :
    Invocation.ofArguments Sample.arguments = .ok Sample.invocation ∧
    (∃ settings, Settings.discover Sample.looped none (some ⟨"/w"⟩) = .ok (settings, none)) ∧
    (∀ text, ∃ files, Sample.looped.writeText ⟨"/w/out.json"⟩ text = .ok files) ∧
    let ending := call Sample.arguments ⟨[], "", Sample.looped⟩
    ending.status = 1 ∧ ending.files.readText ⟨"/w/out.json"⟩ = .error .notFound := by
  have h := Sample.bare_looped
  refine ⟨Sample.ofArguments_arguments, ⟨_, h.discover⟩, h.writable, ?_⟩
  intro ending
  have hbreaks : Sample.invocation.task.BreaksOff Sample.looped :=
    ⟨_, Sample.resolve_looped, .inr ⟨_, _, _, rfl, List.mem_singleton.mpr rfl,
      Sample.staleness_looped⟩⟩
  obtain ⟨hstatus, hfiles⟩ := call_of_breaksOff Host.collaborators (c := ⟨[], "", Sample.looped⟩)
    Sample.ofArguments_arguments h.discover hbreaks
  refine ⟨hstatus, ?_⟩
  rw [show ending.files = _ from hfiles]
  exact h.report_missing

end CommandLine

end QueryBuild

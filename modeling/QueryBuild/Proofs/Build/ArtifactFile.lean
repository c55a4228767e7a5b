import QueryBuild.Proofs.Build.Recompile
/-!
# What counts as an artifact

A compile phase looks at the time of whatever lies at the path of an artifact, and a run phase wants
a regular file there. The two disagree about a directory that is newer than the source: it is up to
date, and it cannot be run. Nothing else lets an artifact be missing right after a compile phase
that succeeded, as long as the compiler makes regular files and takes none away.
-/

namespace QueryBuild

open FileSystem

/-- A compiler that leaves a regular file as the artifact if it succeeds. -/
def Toolchain.LeavesFile (toolchain : Toolchain) : Prop :=
  ∀ program artifact fs, toolchain.Succeeds program artifact fs →
    (toolchain program artifact fs).files.isFile artifact = true

theorem Toolchain.Compiles.leavesFile {make : String → ByteArray} {toolchain : Toolchain}
    (h : toolchain.Compiles make) : toolchain.LeavesFile := by
  intro program artifact fs hsuccess
  obtain ⟨location, contents, built, executable, hfind, -⟩ := h.find hsuccess
  exact isFile_eq_true.mpr ⟨location, contents, built, executable, hfind⟩

namespace BuildUnit

variable {help : Collaborators} {force : Bool} {u : BuildUnit} {now : FileSystem}

/-- The compiler, called for a unit when its program is written, takes away the regular file at a
path. -/
def TakesAway (help : Collaborators) (now : FileSystem) (u : BuildUnit) (path : Path) : Prop :=
  ∃ sql written, now.writeText u.program (Program.render u sql).source = .ok written ∧
    written.isFile path = true ∧ help.toolchain.Succeeds u.program u.artifact written ∧
    (help.toolchain u.program u.artifact written).files.isFile path = false

/-- What is said of an artifact that is not there. -/
def missingReason (artifact : String) : String :=
  "artifact " ++ artifact ++ " not found; compile first"

theorem missingReason_inj {first second : String} (h : missingReason first = missingReason second) :
    first = second := by
  have hlist := congrArg String.toList h
  simp only [missingReason, String.toList_append] at hlist
  exact String.toList_inj.mp (List.append_cancel_left (List.append_cancel_right hlist))

theorem judge_ne_missing {name artifact stderr : String} (result : Except IoError ProcessOutput) :
    judge "could not be started: " (.notExecuted name) result ≠
      .error (.notExecuted name (missingReason artifact) stderr) := by
  -- the reasons start with different letters
  have hletter : (missingReason artifact).toList.head? = some 'a' := by
    simp [missingReason]
  intro h
  rw [judge.eq_def] at h
  split at h
  · have hreason := (BuildError.notExecuted.inj (Except.error.inj h)).2.1
    rw [← hreason] at hletter
    simp at hletter
  · rename_i output
    split at h
    · cases h
    · have hreason := (BuildError.notExecuted.inj (Except.error.inj h)).2.1
      rw [← hreason, ProcessOutput.describeExit] at hletter
      split at hletter
      · simp at hletter
      · simp at hletter

/-- An artifact is reported as missing only if no regular file lies there. -/
theorem missing_of_run {name artifact stderr : String}
    (h : (u.run help now).result = .error (.notExecuted name (missingReason artifact) stderr)) :
    now.isFile u.artifact = false ∧ (u.run help now).files = now ∧
      name = u.name ∧ artifact = u.artifact.text := by
  rw [run] at h ⊢
  split at h
  · have hjudged := error_of_map h
    obtain ⟨_, _, herror⟩ := error_of_judge hjudged
    have hname : name = u.name := (BuildError.notExecuted.inj herror).1
    exact absurd (hname ▸ hjudged) (judge_ne_missing _)
  · rename_i hnot
    have herror := BuildError.notExecuted.inj (Except.error.inj h)
    rw [if_neg hnot]
    exact ⟨by simpa using hnot, rfl, herror.1.symm, (missingReason_inj herror.2.1).symm⟩

/-- A unit that compiles has a regular file as its artifact, unless something else lies there that
is newer than the source. -/
theorem not_file_of_compile (hleaves : help.toolchain.LeavesFile) {record : UnitRecord}
    (hok : (u.compile help force now).result = .ok record)
    (hnot : (u.compile help force now).files.isFile u.artifact = false) :
    force = false ∧ Staleness.ofUnit now u = .ok .upToDate ∧ now.isFile u.artifact = false := by
  rcases compile_ok hok with ⟨hforce, hstale, hfiles⟩ | ⟨sql, written, -, -, hsuccess, hfiles⟩
  · exact ⟨hforce, hstale, hfiles ▸ hnot⟩
  · rw [hfiles, hleaves _ _ _ hsuccess] at hnot
    cases hnot

/-- A unit that compiles loses a regular file only if the compiler takes it away. -/
theorem takesAway_of_compile {path : Path} {record : UnitRecord}
    (hok : (u.compile help force now).result = .ok record) (hfile : now.isFile path = true)
    (hgone : (u.compile help force now).files.isFile path = false) :
    u.TakesAway help now path := by
  rcases compile_ok hok with ⟨-, -, hfiles⟩ | ⟨sql, written, -, hwrite, hsuccess, hfiles⟩
  · rw [hfiles, hfile] at hgone
    cases hgone
  · exact ⟨sql, written, hwrite, isFile_of_write hwrite hfile, hsuccess, hfiles ▸ hgone⟩

end BuildUnit

namespace BuildPlan

section

variable {plan : BuildPlan} {help runner : Collaborators} {force : Bool} {fs : FileSystem}

/-- A compile phase that succeeds loses a regular file only if the compiler takes it away when it is
called for one of the units. -/
theorem takesAway_of_phase {path : Path} {units : List BuildUnit} {records : List UnitRecord}
    (hok : (plan.phase .compile (BuildUnit.compile help force) units fs).outcome = .ok records)
    (hfile : fs.isFile path = true)
    (hgone : (plan.phase .compile (BuildUnit.compile help force) units fs).files.isFile path =
      false) : ∃ front v back, units = front ++ v :: back ∧ v.TakesAway help
        (plan.phase .compile (BuildUnit.compile help force) front fs).files path := by
  induction units generalizing fs records with
  | nil => exact absurd (hfile.symm.trans hgone) (by decide)
  | cons u units ih =>
    cases hresult : (u.compile help force fs).result with
    | error e =>
      rw [phase_cons_error hresult] at hok
      cases hok
    | ok record =>
      rw [phase_cons_ok hresult] at hok hgone
      obtain ⟨later, hlater, -⟩ := BuildResult.ok_of_after hok
      cases hstill : (u.compile help force fs).files.isFile path with
      | false => exact ⟨[], u, units, rfl, BuildUnit.takesAway_of_compile hresult hfile hstill⟩
      | true =>
        obtain ⟨front, v, back, rfl, htakes⟩ := ih hlater hstill hgone
        refine ⟨u :: front, v, back, rfl, ?_⟩
        rw [phase_cons_ok hresult]
        exact htakes

/-- An artifact is missing right after a compile phase that succeeded, with no file changed since,
only if something else than a regular file was taken as an artifact that is up to date, or if the
compiler took the artifact away when it was called for a later unit. -/
theorem missing_artifact_of_run {records : List UnitRecord} {f : BuildFailure}
    {name artifact stderr : String} (hleaves : help.toolchain.LeavesFile)
    (hok : (plan.compile help force fs).outcome = .ok records)
    (hfailed : (plan.run runner (plan.compile help force fs).files).outcome = .error f)
    (hmissing : f.error =
      .notExecuted name ("artifact " ++ artifact ++ " not found; compile first") stderr)
    (hsame : (plan.run runner (plan.compile help force fs).files).files =
      (plan.compile help force fs).files) :
    let turn := fun done => (plan.phase .compile (BuildUnit.compile help force) done fs).files
    ∃ done u rest, plan.order = done ++ u :: rest ∧ u.name = name ∧ u.artifact.text = artifact ∧
      ((force = false ∧ Staleness.ofUnit (turn done) u = .ok .upToDate ∧
          (turn done).isFile u.artifact = false) ∨
        ∃ front v back, rest = front ++ v :: back ∧
          v.TakesAway help (turn (done ++ u :: front)) u.artifact) := by
  dsimp only
  rw [run] at hfailed hsame
  obtain ⟨done, u, rest, completed, e, hsplit, -, hstop, hfiles, rfl⟩ := phase_stops hfailed
  have hstop' : e = .notExecuted name (BuildUnit.missingReason artifact) stderr := hmissing
  rw [hstop'] at hstop
  obtain ⟨hnot, hunchanged, hname, hartifact⟩ := BuildUnit.missing_of_run hstop
  rw [← hunchanged, ← hfiles, hsame, compile] at hnot
  refine ⟨done, u, rest, hsplit, hname.symm, hartifact.symm, ?_⟩
  rw [compile, hsplit] at hok
  -- the phase up to the unit, the unit, and the phase behind it
  obtain ⟨before, record, behind, hdone, hresult, hbehind, hlast⟩ := phase_split_ok hok
  rw [hsplit, hlast] at hnot
  cases hfile : (u.compile help force
      (plan.phase .compile (BuildUnit.compile help force) done fs).files).files.isFile
      u.artifact with
  | false => exact Or.inl (BuildUnit.not_file_of_compile hleaves hresult hfile)
  | true =>
    obtain ⟨front, v, back, hrest, htakes⟩ := takesAway_of_phase hbehind hfile hnot
    refine Or.inr ⟨front, v, back, hrest, ?_⟩
    rw [phase_append_ok hdone, BuildResult.after, phase_cons_ok hresult]
    exact htakes

namespace Sample

/-- A directory has the path of the artifact, and it is newer than the source. -/
def occupied : FileSystem where
  entries := [
    ([FileName.ofText "w"], .directory 0),
    ([FileName.ofText "w", FileName.ofText "a.sql"], .file "SELECT 1".toUTF8 1 false),
    ([FileName.ofText "w", FileName.ofText "a"], .directory 2)]
  workingDirectory := []
  now := 2

theorem find_source : occupied.find first.source =
    .ok ([FileName.ofText "w", FileName.ofText "a.sql"], .file "SELECT 1".toUTF8 1 false) :=
  find_of_walk ["w", "a.sql"] (by decide) (by decide) (by cbv)

theorem find_directory : occupied.find first.artifact =
    .ok ([FileName.ofText "w", FileName.ofText "a"], .directory 2) :=
  find_of_walk ["w", "a"] (by decide) (by decide) (by cbv)

theorem resolve_occupied : (resolveWith Reference.names occupied ⟨"/w"⟩).2 = .ok lone :=
  resolve_lone (by cbv) (by cbv) (readText_of_find find_source)

theorem compile_occupied : lone.compile compiling false occupied =
    ⟨.ok [.ofUnit occupied first .upToDate], occupied,
      [.finished .compile (.ofUnit occupied first .upToDate)]⟩ := by
  have hedited : occupied.modified first.source = .ok 1 :=
    modified_eq_ok.mpr ⟨_, find_source, rfl⟩
  have hbuilt : occupied.modified first.artifact = .ok 2 :=
    modified_eq_ok.mpr ⟨_, find_directory, rfl⟩
  have hnewer := BuildUnit.upToDate_of_newer hedited hbuilt (by decide)
  exact phase_upToDate lone compiling fun u hu => List.mem_singleton.mp hu ▸ hnewer

theorem run_occupied : lone.run compiling occupied =
    ⟨.error (.atUnit lone .run first (.notExecuted "a" (BuildUnit.missingReason "/w/a") "") []),
      occupied, []⟩ := by
  have hnot : occupied.isFile first.artifact = false := by
    rw [isFile, find_directory]
    rfl
  have hrun : first.run compiling occupied =
      ⟨.error (.notExecuted "a" (BuildUnit.missingReason "/w/a") ""), occupied, []⟩ := by
    rw [BuildUnit.run, hnot]
    rfl
  have hphase : lone.phase .run (BuildUnit.run compiling) [first] occupied = _ :=
    phase_cons_error (congrArg Step.result hrun) []
  rw [hrun] at hphase
  exact hphase

end Sample

/-- The artifact that is missing is a directory that was taken as up to date. -/
theorem directory_is_upToDate :
    Staleness.ofUnit Sample.occupied Sample.first = .ok .upToDate ∧
      Sample.occupied.isFile Sample.first.artifact = false := by
  have hok : (Sample.lone.compile Sample.compiling false Sample.occupied).outcome =
      .ok [.ofUnit Sample.occupied Sample.first .upToDate] := by
    rw [Sample.compile_occupied]
  have hrun : Sample.lone.run Sample.compiling
      (Sample.lone.compile Sample.compiling false Sample.occupied).files = ⟨.error (.atUnit
        Sample.lone .run Sample.first (.notExecuted "a" (BuildUnit.missingReason "/w/a") "") []),
        Sample.occupied, []⟩ := by
    rw [Sample.compile_occupied, Sample.run_occupied]
  obtain ⟨done, u, rest, hsplit, -, -, hcase⟩ := missing_artifact_of_run
    (Toolchain.compiles_prompt String.toUTF8).leavesFile hok (congrArg BuildResult.outcome hrun)
    rfl (by rw [hrun, Sample.compile_occupied])
  cases done with
  | nil =>
    cases hsplit
    rcases hcase with ⟨-, hstale, hnot⟩ | ⟨front, v, back, hrest, -⟩
    · exact ⟨hstale, hnot⟩
    · simp at hrest
  | cons first done => simp [Sample.lone] at hsplit

/-- A plan is compiled with success while a directory lies where the artifact should be, and then it
is told to compile first. -/
theorem directory_passes_for_artifact :
    (resolveWith Reference.names Sample.occupied ⟨"/w"⟩).2 = .ok Sample.lone ∧
      Sample.compiling.toolchain.LeavesFile ∧
      let compiled := Sample.lone.compile Sample.compiling false Sample.occupied
      let ran := Sample.lone.run Sample.compiling compiled.files
      (∃ records, compiled.outcome = .ok records) ∧ ran.files = compiled.files ∧
        ∃ f, ran.outcome = .error f ∧
          f.error = .notExecuted "a" "artifact /w/a not found; compile first" "" := by
  refine ⟨Sample.resolve_occupied, (Toolchain.compiles_prompt String.toUTF8).leavesFile, ?_⟩
  dsimp only
  rw [Sample.compile_occupied, Sample.run_occupied]
  exact ⟨⟨_, rfl⟩, rfl, _, rfl, rfl⟩

end

end BuildPlan

end QueryBuild

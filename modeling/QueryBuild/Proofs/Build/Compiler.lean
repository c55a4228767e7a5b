import QueryBuild.Proofs.Build.Layout
import QueryBuild.Proofs.Build.Phase
/-!
# What compiling a unit touches

To compile a unit writes its program and, if the compiler succeeds, its artifact. No unit loses
anything by that, as long as no program or artifact is a file of another unit.
-/

namespace QueryBuild

open FileSystem

/-- A call of a compiler ends well. -/
def Toolchain.Succeeds (toolchain : Toolchain) (program artifact : Path) (fs : FileSystem) : Prop :=
  ∃ ended, (toolchain program artifact fs).result = .ok ended ∧ ended.success = true

theorem Toolchain.failed_of_not_succeeds {toolchain : Toolchain} {program artifact : Path}
    {fs : FileSystem} (h : ¬ toolchain.Succeeds program artifact fs) :
    ∀ ended, (toolchain program artifact fs).result = .ok ended → ended.success = false := by
  intro ended hended
  by_contra hwell
  exact h ⟨ended, hended, by simpa using hwell⟩

/-- A compiler that writes the artifact and nothing else, from the text of the program and nothing
else. It may take time. -/
structure Toolchain.Compiles (make : String → ByteArray) (toolchain : Toolchain) : Prop where
  success : ∀ program artifact fs ended, (toolchain program artifact fs).result = .ok ended →
    ended.success = true → ∃ text time written executable,
      fs.readText program = .ok text ∧ fs.now ≤ time ∧
      (fs.setClock time).write artifact (make text) = .ok written ∧
      written.setExecutable artifact executable = .ok (toolchain program artifact fs).files
  failure : ∀ program artifact fs,
    (∀ ended, (toolchain program artifact fs).result = .ok ended → ended.success = false) →
    ∃ time, fs.now ≤ time ∧ (toolchain program artifact fs).files = fs.setClock time

/-- A compiler that makes the artifact at once. -/
def Toolchain.prompt (make : String → ByteArray) : Toolchain := fun program artifact fs =>
  match fs.readText program with
  | .error e => .refused fs e
  | .ok text =>
    match fs.write artifact (make text) with
    | .error e => .refused fs e
    | .ok written =>
      match written.setExecutable artifact true with
      | .error e => .refused fs e
      | .ok files => ⟨.ok .succeeded, files, .empty⟩

theorem Toolchain.compiles_prompt (make : String → ByteArray) : (prompt make).Compiles make where
  success program artifact fs ended hended hwell := by
    rw [prompt] at hended ⊢
    split at hended
    · cases hended
    · rename_i text htext
      split at hended
      · cases hended
      · rename_i written hw
        split at hended
        · cases hended
        · rename_i files hs
          refine ⟨text, fs.now, written, true, htext, Int.le_refl _, hw, ?_⟩
          simp only [hs]
  failure program artifact fs hfailed := by
    refine ⟨fs.now, Int.le_refl _, ?_⟩
    rw [prompt] at hfailed ⊢
    split
    · rfl
    · rename_i text htext
      simp only [htext] at hfailed
      split
      · rfl
      · rename_i written hw
        simp only [hw] at hfailed
        split
        · rfl
        · rename_i files hs
          simp only [hs] at hfailed
          exact absurd (hfailed _ rfl) (by decide)

/-! ### One unit -/

section

variable {names : List String} {base : Location} {fs : FileSystem}

/-- A compiler that succeeds makes the artifact; one that fails touches nothing. -/
theorem Toolchain.Compiles.touched {make : String → ByteArray} {toolchain : Toolchain}
    (hcompiles : toolchain.Compiles make) (hflat : fs.FlatAt (Path.rooted names) base)
    (hnames : ∀ n ∈ names, IsOrdinary n) {program artifact : Path}
    (hartifact : artifact.IsEntry names)
    {source : String} (hprogram : fs.readText program = .ok source) :
    let reaction := toolchain program artifact fs
    (TouchedOnly base [artifact] fs reaction.files ∧ ∃ time executable,
      time ≤ reaction.files.now ∧ reaction.files.find artifact =
        .ok (artifact.locationIn base, .file (make source) time executable)) ∨
    (TouchedOnly base [] fs reaction.files ∧
      ∀ ended, reaction.result = .ok ended → ended.success = false) := by
  dsimp only
  by_cases hsuccess : toolchain.Succeeds program artifact fs
  · left
    obtain ⟨ended, hended, hwell⟩ := hsuccess
    obtain ⟨text, time, written, executable, hread, hlater, hw, hs⟩ :=
      hcompiles.success program artifact fs ended hended hwell
    cases hprogram.symm.trans hread
    have hclock : TouchedOnly base [artifact] fs (fs.setClock time) := touchedOnly_setClock hlater
    have hflat₁ := hflat.of_sameShape hclock.shape
    obtain ⟨hwrite, before, hfind⟩ := hflat₁.write hnames hartifact hw
    have hflat₂ := hflat₁.of_sameShape hwrite.shape
    obtain ⟨hset, hfind'⟩ := hflat₂.setExecutable hnames hartifact hfind hs
    refine ⟨hclock.trans (hwrite.trans hset), time, executable, ?_, hfind'⟩
    exact Int.le_trans hwrite.now hset.now
  · right
    have hfailed := Toolchain.failed_of_not_succeeds hsuccess
    obtain ⟨time, hlater, hfiles⟩ := hcompiles.failure program artifact fs hfailed
    refine ⟨?_, hfailed⟩
    rw [hfiles]
    exact touchedOnly_setClock hlater

end

/-! ### Several units -/

namespace BuildPlan

/-- No unit is named like a directory, and no program or artifact of a unit is a file of another
one. -/
structure Separate (plan : BuildPlan) : Prop where
  named : ∀ u ∈ plan.order, u.name ≠ "." ∧ u.name ≠ ".."
  apart : ∀ u ∈ plan.order, ∀ v ∈ plan.order, u ≠ v →
    ∀ path ∈ [u.program, u.artifact], path ∉ [v.source, v.program, v.artifact]

section

variable {names : List String} {plan : BuildPlan} {u : BuildUnit}

theorem Separate.source_untouched (h : plan.Separate) (hlaid : plan.LaidOut names)
    (hu : u ∈ plan.order) {v : BuildUnit} (hv : v ∈ plan.order) :
    v.source ∉ [u.program, u.artifact] := by
  by_cases huv : u = v
  · subst huv
    have hprogram := (hlaid.units u hu).program_ne_source hlaid.ordinary
    have hartifact := (hlaid.units u hu).source_ne_artifact hlaid.ordinary
    simp [hprogram.symm, hartifact]
  · intro hmem
    exact h.apart u hu v hv huv v.source hmem (by simp)

theorem Separate.artifact_untouched (h : plan.Separate) (hu : u ∈ plan.order) {v : BuildUnit}
    (hv : v ∈ plan.order) (hne : u ≠ v) : v.artifact ∉ [u.program, u.artifact] :=
  fun hmem => h.apart u hu v hv hne v.artifact hmem (by simp)

end

end BuildPlan

end QueryBuild

import QueryBuild.Proofs.Build.Compiler
import QueryBuild.Proofs.Files.View
/-!
# What compiling a unit leaves alone

If the compiler writes nothing but the artifact that it is to make, then compiling a unit changes
its program and its artifact at most. The files of all other units look as they did, if no program
and no artifact is a file of another unit, and all paths go on leading where they led.
-/

namespace QueryBuild

open FileSystem

/-- A compiler that writes nothing but the artifact that it is to make. It may fail, and it may
take time. -/
structure Toolchain.Confined (toolchain : Toolchain) : Prop where
  shape : ∀ program artifact fs, SameShape fs (toolchain program artifact fs).files
  kept : ∀ program artifact fs other,
    (∀ target, fs.resolve true artifact = .ok target →
      other ≠ target.location ∧ other ≠ target.location.dropLast) →
    (toolchain program artifact fs).files.get? other = fs.get? other

theorem Toolchain.Confined.writesOnly {toolchain : Toolchain} (h : toolchain.Confined)
    (program artifact : Path) (fs : FileSystem) :
    WritesOnly artifact fs (toolchain program artifact fs).files :=
  ⟨h.shape program artifact fs, h.kept program artifact fs⟩

theorem Toolchain.Compiles.writesOnly {make : String → ByteArray} {toolchain : Toolchain}
    (h : toolchain.Compiles make) (program artifact : Path) (fs : FileSystem) :
    WritesOnly artifact fs (toolchain program artifact fs).files := by
  by_cases hsuccess : toolchain.Succeeds program artifact fs
  · obtain ⟨ended, hended, hwell⟩ := hsuccess
    obtain ⟨text, time, written, executable, -, -, hw, hs⟩ :=
      h.success program artifact fs ended hended hwell
    exact (writesOnly_setClock artifact fs time).trans
      ((write_spec hw).1.trans (setExecutable_spec hs).1)
  · obtain ⟨time, -, hfiles⟩ :=
      h.failure program artifact fs (failed_of_not_succeeds hsuccess)
    rw [hfiles]
    exact writesOnly_setClock artifact fs time

theorem Toolchain.Compiles.confined {make : String → ByteArray} {toolchain : Toolchain}
    (h : toolchain.Compiles make) : toolchain.Confined :=
  ⟨fun program artifact fs => (h.writesOnly program artifact fs).shape,
    fun program artifact fs => (h.writesOnly program artifact fs).kept⟩

namespace BuildUnit

/-- Both files look the same at the source, the program and the artifact of a unit. -/
structure SameFiles (fs fs' : FileSystem) (u : BuildUnit) : Prop where
  source : SameView fs fs' u.source
  program : SameView fs fs' u.program
  artifact : SameView fs fs' u.artifact

section

variable {help : Collaborators} {fs now : FileSystem} {u : BuildUnit}

theorem SameFiles.trans {later : FileSystem} (h : u.SameFiles fs now)
    (h' : u.SameFiles now later) : u.SameFiles fs later :=
  ⟨h.source.trans h'.source, h.program.trans h'.program, h.artifact.trans h'.artifact⟩

theorem SameFiles.staleness (h : u.SameFiles fs now) :
    Staleness.ofUnit now u = Staleness.ofUnit fs u :=
  h.source.staleness h.artifact

theorem SameFiles.sourceText (h : u.SameFiles fs now) : u.sourceText now = u.sourceText fs :=
  h.source.readText

/-! ### One unit -/

theorem build_shape (hconfined : help.toolchain.Confined) (u : BuildUnit) (fs : FileSystem) :
    SameShape fs (u.build help fs).files := by
  rcases build_cases help u fs with ⟨e, events, -, hbuild⟩ | ⟨sql, written, -, -, hwrite, hbuild⟩
  · rw [hbuild]
    exact SameShape.refl fs
  · rw [hbuild]
    exact (write_spec hwrite).1.shape.trans (hconfined.shape _ _ _)

theorem compile_shape (hconfined : help.toolchain.Confined) (force : Bool) (u : BuildUnit)
    (fs : FileSystem) : SameShape fs (u.compile help force fs).files := by
  rw [compile]
  split
  · exact SameShape.refl fs
  · split
    · exact SameShape.refl fs
    · exact build_shape hconfined u fs

variable {names : List String} {base : Location}

theorem LiesIn.build_changedWithin (h : u.LiesIn names) (hnames : ∀ n ∈ names, IsOrdinary n)
    (hflat : now.FlatAt (Path.rooted names) base) (hconfined : help.toolchain.Confined) :
    ChangedWithin base [u.program, u.artifact] now (u.build help now).files := by
  rcases build_cases help u now with ⟨e, events, -, hbuild⟩ | ⟨sql, written, -, -, hwrite, hbuild⟩
  · rw [hbuild]
    exact ChangedWithin.refl _ _ _
  · obtain ⟨hwritten, -⟩ := hflat.write hnames h.program_isEntry hwrite
    have hartifact := (hconfined.writesOnly u.program u.artifact written).changedWithin
      (hflat.of_sameShape hwritten.shape) hnames h.artifact_isEntry
    rw [hbuild]
    exact (hwritten.changedWithin.mono (by simp)).trans (hartifact.mono (by simp))

theorem LiesIn.compile_changedWithin (h : u.LiesIn names) (hnames : ∀ n ∈ names, IsOrdinary n)
    (hflat : now.FlatAt (Path.rooted names) base) (hconfined : help.toolchain.Confined)
    (force : Bool) :
    ChangedWithin base [u.program, u.artifact] now (u.compile help force now).files := by
  rw [compile]
  split
  · exact ChangedWithin.refl _ _ _
  · split
    · exact ChangedWithin.refl _ _ _
    · exact h.build_changedWithin hnames hflat hconfined

end

end BuildUnit

namespace BuildPlan

/-! ### Several units -/

section

variable {names : List String} {base : Location} {plan : BuildPlan} {help : Collaborators}
  {now : FileSystem} {u v : BuildUnit}

/-- A compile phase leads no path to another place. -/
theorem phase_shape (hconfined : help.toolchain.Confined) (force : Bool) (units : List BuildUnit)
    (fs : FileSystem) :
    SameShape fs (plan.phase .compile (BuildUnit.compile help force) units fs).files := by
  induction units generalizing fs with
  | nil => exact SameShape.refl fs
  | cons u units ih =>
    have hstep := BuildUnit.compile_shape hconfined force u fs
    cases hresult : (u.compile help force fs).result with
    | error e =>
      rw [phase_cons_error hresult]
      exact hstep
    | ok record =>
      rw [phase_cons_ok hresult]
      exact hstep.trans (ih _)

theorem Separate.program_untouched (h : plan.Separate) (hu : u ∈ plan.order)
    (hv : v ∈ plan.order) (hne : u ≠ v) : v.program ∉ [u.program, u.artifact] :=
  fun hmem => h.apart u hu v hv hne v.program hmem (by simp)

/-- Changes to the program and the artifact of a unit leave the files of all other units alone. -/
theorem sameFiles_of_changedWithin (hlaid : plan.LaidOut names) (hsep : plan.Separate)
    (hflat : now.FlatAt (Path.rooted names) base) (hu : u ∈ plan.order) {files : FileSystem}
    (hchanged : ChangedWithin base [u.program, u.artifact] now files) (hv : v ∈ plan.order)
    (hne : u ≠ v) : v.SameFiles now files := by
  have hpaths : ∀ path ∈ [u.program, u.artifact], path.IsEntry names := by
    simpa using ⟨(hlaid.units u hu).program_isEntry, (hlaid.units u hu).artifact_isEntry⟩
  have hview : ∀ path, path.IsEntry names → path ∉ [u.program, u.artifact] →
      SameView now files path := fun path hpath hnot =>
    hchanged.sameView hflat hlaid.ordinary hpaths hpath hnot
  exact ⟨hview _ (hlaid.units v hv).source_isEntry (hsep.source_untouched hlaid hu hv),
    hview _ (hlaid.units v hv).program_isEntry (hsep.program_untouched hu hv hne),
    hview _ (hlaid.units v hv).artifact_isEntry (hsep.artifact_untouched hu hv hne)⟩

end

end BuildPlan

end QueryBuild

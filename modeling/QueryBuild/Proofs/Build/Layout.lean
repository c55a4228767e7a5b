import QueryBuild.Proofs.Files.Directory
import QueryBuild.Proofs.Files.Names
/-!
# Where the files of units lie

The source, the program, the artifact and the output of a discovered unit are entries of the
directory that was looked at, with names made from the unit's name.
-/

namespace QueryBuild

theorem IsOrdinary.extended {name extension : String} (hname : name ≠ "" ∧ '/' ∉ name.toList)
    (hextension : extension ≠ "" ∧ '/' ∉ extension.toList) :
    IsOrdinary (name ++ "." ++ extension) := by
  have hpositive : ∀ s : String, s ≠ "" → 0 < s.toList.length := by
    intro s hs
    apply List.length_pos_of_ne_nil
    intro hnil
    exact hs (String.toList_inj.mp hnil)
  have hlength : 2 < (name ++ "." ++ extension).toList.length := by
    have := hpositive _ hname.1
    have := hpositive _ hextension.1
    simp at *
    omega
  refine ⟨?_, ?_, ?_, ?_⟩
  · intro heq
    rw [heq] at hlength
    exact absurd hlength (by decide)
  · simp [hname.2, hextension.2]
  · intro heq
    rw [heq] at hlength
    exact absurd hlength (by decide)
  · intro heq
    rw [heq] at hlength
    exact absurd hlength (by decide)

namespace BuildUnit

/-- The files of a unit lie in the directory that some names lead to. -/
structure LiesIn (names : List String) (u : BuildUnit) : Prop where
  name : IsOrdinary u.name
  source : ∃ extension, extension.map Char.toLower = sourceExtension ∧
    IsOrdinary (u.name ++ "." ++ extension) ∧
    u.source = Path.rooted (names ++ [u.name ++ "." ++ extension])
  artifact : u.artifact = Path.rooted (names ++ [u.name])
  sibling : ∀ extension, extension ≠ "" → '/' ∉ extension.toList →
    u.sibling extension = Path.rooted (names ++ [u.name ++ "." ++ extension])

section Files

variable {names : List String} {u : BuildUnit}

theorem sibling_ofSource (hnames : ∀ n ∈ names, IsOrdinary n) {file name extension : String}
    (hfile : IsOrdinary file) (hname : name ≠ "" ∧ '/' ∉ name.toList)
    (hextension : extension ≠ "" ∧ '/' ∉ extension.toList) :
    (ofSource name (Path.rooted (names ++ [file]))).sibling extension =
      Path.rooted (names ++ [name ++ "." ++ extension]) := by
  rw [sibling, directory, ofSource, Path.parent?_rooted hnames hfile, Option.getD_some]
  exact Path.join_rooted hnames (.extended hname hextension)

/-- The files of a unit whose source is an entry of a directory lie in that directory. -/
theorem liesIn_ofSource (hnames : ∀ n ∈ names, IsOrdinary n) {name extension : String}
    (hname : IsOrdinary name) (hfile : IsOrdinary (name ++ "." ++ extension))
    (hlower : extension.map Char.toLower = sourceExtension) :
    (ofSource name (Path.rooted (names ++ [name ++ "." ++ extension]))).LiesIn names where
  name := hname
  source := ⟨extension, hlower, hfile, rfl⟩
  artifact := Path.withFileName_rooted hnames hfile hname
  sibling _ hnonempty hslash :=
    sibling_ofSource hnames hfile ⟨hname.nonempty, hname.noSlash⟩ ⟨hnonempty, hslash⟩

/-- The files of a discovered unit lie in the directory that was looked at. -/
theorem liesIn_of_foundAs (hnames : ∀ n ∈ names, IsOrdinary n) {file : FileName}
    (hfile : file.IsProper) (hfound : UnitGraph.FoundAs (Path.rooted names) file u)
    (hdot : u.name ≠ ".") (hdots : u.name ≠ "..") : u.LiesIn names := by
  obtain ⟨hsource, stem, hstem, rfl⟩ := hfound
  obtain ⟨extension, hwhole, hlower, hnonempty⟩ := FileName.eq_ofText_of_isSource hsource hstem
  have hshown : file.shown = stem ++ "." ++ extension := by
    rw [hwhole, FileName.shown_ofText]
  have hordinary : IsOrdinary (stem ++ "." ++ extension) := hshown ▸ hfile.isOrdinary_shown
  have hslash : '/' ∉ stem.toList := by
    intro hmem
    exact hordinary.noSlash (by simp [hmem])
  rw [hshown, Path.join_rooted hnames hordinary]
  exact liesIn_ofSource hnames ⟨hnonempty, hslash, hdot, hdots⟩ hordinary hlower

theorem LiesIn.source_isEntry (h : u.LiesIn names) : u.source.IsEntry names := by
  obtain ⟨extension, -, hordinary, hsource⟩ := h.source
  exact ⟨_, hordinary, hsource⟩

theorem LiesIn.artifact_isEntry (h : u.LiesIn names) : u.artifact.IsEntry names :=
  ⟨_, h.name, h.artifact⟩

theorem LiesIn.sibling_isEntry (h : u.LiesIn names) {extension : String}
    (hextension : extension ≠ "" ∧ '/' ∉ extension.toList) :
    (u.sibling extension).IsEntry names :=
  ⟨_, IsOrdinary.extended ⟨h.name.nonempty, h.name.noSlash⟩ hextension,
    h.sibling extension hextension.1 hextension.2⟩

theorem LiesIn.program_isEntry (h : u.LiesIn names) : u.program.IsEntry names :=
  h.sibling_isEntry (by decide)

theorem LiesIn.source_ne_artifact (hnames : ∀ n ∈ names, IsOrdinary n) (h : u.LiesIn names) :
    u.source ≠ u.artifact := by
  obtain ⟨extension, -, hordinary, hsource⟩ := h.source
  rw [hsource, h.artifact, Ne, Path.rooted_concat_inj hnames hordinary h.name]
  intro heq
  have hlength := congrArg (fun s : String => s.toList.length) heq
  simp at hlength

theorem LiesIn.program_ne_artifact (hnames : ∀ n ∈ names, IsOrdinary n) (h : u.LiesIn names) :
    u.program ≠ u.artifact := by
  have hordinary : IsOrdinary (u.name ++ "." ++ programExtension) :=
    IsOrdinary.extended ⟨h.name.nonempty, h.name.noSlash⟩ (by decide)
  rw [program, h.sibling _ (by decide) (by decide), h.artifact, Ne,
    Path.rooted_concat_inj hnames hordinary h.name]
  intro heq
  have hlength := congrArg (fun s : String => s.toList.length) heq
  simp at hlength

theorem LiesIn.program_ne_source (hnames : ∀ n ∈ names, IsOrdinary n) (h : u.LiesIn names) :
    u.program ≠ u.source := by
  have hprogram : IsOrdinary (u.name ++ "." ++ programExtension) :=
    IsOrdinary.extended ⟨h.name.nonempty, h.name.noSlash⟩ (by decide)
  obtain ⟨extension, hlower, hordinary, hsource⟩ := h.source
  rw [program, h.sibling _ (by decide) (by decide), hsource, Ne,
    Path.rooted_concat_inj hnames hprogram hordinary]
  intro heq
  have hextension : programExtension = extension := by
    have hlist := congrArg String.toList heq
    simpa [String.toList_inj] using hlist
  have hkept : programExtension.map Char.toLower = programExtension := by cbv
  rw [← hextension, hkept] at hlower
  exact absurd hlower (by decide)

end Files

end BuildUnit

namespace BuildPlan

/-- All files of a plan lie in the directory that some names lead to. -/
structure LaidOut (names : List String) (plan : BuildPlan) : Prop where
  ordinary : ∀ n ∈ names, IsOrdinary n
  directory : plan.directory = Path.rooted names
  units : ∀ u ∈ plan.order, u.LiesIn names

theorem path_eq_rooted (location : Location) :
    Location.path location = Path.rooted (location.map FileName.shown) := by
  cases location with
  | nil => rfl
  | cons name rest => simp [Location.path, Path.rooted, Function.comp_def]

/-- The files of a plan lie in its directory, if no unit is named `.` or `..`. -/
theorem laidOut_of_resolveWith {extract : Extractor} {found : FileSystem} {path : Path}
    {plan : BuildPlan} (hplan : (resolveWith extract found path).2 = .ok plan)
    (hfound : found.WellKept) (hdots : ∀ u ∈ plan.order, u.name ≠ "." ∧ u.name ≠ "..") :
    ∃ names, plan.LaidOut names := by
  have h := resolved_of_resolveWith hplan
  obtain ⟨asked, location, hcanonical, hdirectory, hunits⟩ := h.linked.found
  have hnames : ∀ n ∈ location.map FileName.shown, IsOrdinary n := by
    intro n hn
    obtain ⟨name, hname, rfl⟩ := List.mem_map.mp hn
    exact (hfound.canonicalize hcanonical name hname).isOrdinary_shown
  rw [path_eq_rooted] at hdirectory
  refine ⟨location.map FileName.shown, hnames, hdirectory, fun u hu => ?_⟩
  obtain ⟨file, hfile, hfoundAs⟩ := hunits u ((h.mem_order u).mp hu)
  rw [hdirectory] at hfoundAs
  exact BuildUnit.liesIn_of_foundAs hnames (hfound.fileNames hfile) hfoundAs (hdots u hu).1
    (hdots u hu).2

end BuildPlan

end QueryBuild

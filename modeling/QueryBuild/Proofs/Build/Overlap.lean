import QueryBuild.Proofs.Build.Compiler
import QueryBuild.Proofs.Build.Failure
/-!
# Files that two units share

The artifact of a unit has the name of the unit, and its other files have that name with an
extension. Since names may contain dots, the artifact of one unit can be a file of another one. Two
units share a file in no other way.
-/

namespace QueryBuild

namespace Path

theorem join_eq_append (path : Path) :
    ∃ front : String, ∀ name : String, '/' ∉ name.toList → path.join name = ⟨front ++ name⟩ := by
  by_cases hends : (path.text.isEmpty || path.text.toList.getLast? == some '/') = true
  · refine ⟨path.text, fun name hname => ?_⟩
    rw [join, isAbsolute_of_notMem hname, if_neg (by decide), if_pos hends]
  · refine ⟨path.text ++ "/", fun name hname => ?_⟩
    rw [join, isAbsolute_of_notMem hname, if_neg (by decide), if_neg hends]

theorem join_inj {path : Path} {name other : String} (hname : '/' ∉ name.toList)
    (hother : '/' ∉ other.toList) : path.join name = path.join other ↔ name = other := by
  obtain ⟨front, hfront⟩ := join_eq_append path
  rw [hfront name hname, hfront other hother, Path.mk.injEq]
  constructor
  · intro heq
    have hlist := congrArg String.toList heq
    rw [String.toList_append, String.toList_append] at hlist
    exact String.toList_inj.mp (List.append_cancel_left hlist)
  · intro heq
    rw [heq]

end Path

/-- Extensions of one length follow different names to different names. -/
theorem eq_of_extended {name other extension extension' : String}
    (hlength : extension.length = extension'.length)
    (heq : name ++ "." ++ extension = other ++ "." ++ extension') : name = other := by
  have hlist := congrArg String.toList heq
  simp only [String.toList_append] at hlist
  have hfront := (List.append_inj' hlist hlength).1
  exact String.toList_inj.mp (List.append_cancel_right hfront)

namespace BuildUnit

/-- The files of a unit. -/
def files (u : BuildUnit) : List Path :=
  [u.artifact, u.source, u.program, u.output]

/-- A unit is named like the source, the program or the output of another one. -/
def Shadows (v u : BuildUnit) : Prop :=
  u.source.fileName? = some v.name ∨ v.name = u.name ++ "." ++ programExtension ∨
    v.name = u.name ++ "." ++ outputExtension

/-- The names of the files of a unit that have an extension. -/
def extendedNames (u : BuildUnit) (extension : String) : List String :=
  [extension, programExtension, outputExtension].map fun e => u.name ++ "." ++ e

/-- The files of a unit are in a directory under its name and its name with extensions. -/
structure Housed (directory : Path) (extension : String) (u : BuildUnit) : Prop where
  noSlash : ∀ name ∈ u.name :: u.extendedNames extension, '/' ∉ name.toList
  length : extension.length = 3
  fileName : u.source.fileName? = some (u.name ++ "." ++ extension)
  files : u.files = (u.name :: u.extendedNames extension).map directory.join

section

variable {directory : Path} {extension extension' : String} {u v : BuildUnit}

/-- The files of a discovered unit are named after it, even if it is named `.` or `..`. -/
theorem housed_of_foundAs {names : List String} (hnames : ∀ n ∈ names, IsOrdinary n)
    {file : FileName} (hfile : file.IsProper)
    (hfound : UnitGraph.FoundAs (Path.rooted names) file u) :
    ∃ extension, u.Housed (Path.rooted names) extension := by
  obtain ⟨hsource, stem, hstem, rfl⟩ := hfound
  obtain ⟨extension, hwhole, hlower, -⟩ := FileName.eq_ofText_of_isSource hsource hstem
  have hshown : file.shown = stem ++ "." ++ extension := by
    rw [hwhole, FileName.shown_ofText]
  have hordinary : IsOrdinary (stem ++ "." ++ extension) := hshown ▸ hfile.isOrdinary_shown
  have hrooted := Path.join_rooted hnames hordinary
  have hname := Path.fileName?_rooted hnames hordinary
  have hparent := Path.parent?_rooted hnames hordinary
  rw [hshown]
  refine ⟨extension, ?_, ?_, ?_, ?_⟩
  · have hslash : '/' ∉ stem.toList ∧ '/' ∉ extension.toList := by
      simpa using hordinary.noSlash
    simp [extendedNames, ofSource, hslash, programExtension, outputExtension]
  · have hlength := congrArg String.length hlower
    rwa [String.length_map] at hlength
  · rw [ofSource, hrooted, hname]
  · simp only [BuildUnit.files, ofSource, extendedNames, program, output, sibling,
      BuildUnit.directory, Path.withFileName, hrooted, hname, hparent, Option.getD_some,
      List.map_cons, List.map_nil]

theorem mem_extendedNames {name : String} (h : u.Housed directory extension)
    (hname : name ∈ u.extendedNames extension) :
    ∃ e : String, e.length = 3 ∧ name = u.name ++ "." ++ e := by
  obtain ⟨e, he, rfl⟩ := List.mem_map.mp hname
  refine ⟨e, ?_, rfl⟩
  simp only [List.mem_cons, List.not_mem_nil, or_false] at he
  rcases he with rfl | rfl | rfl
  · exact h.length
  · rfl
  · rfl

theorem shadows_iff (h : u.Housed directory extension) :
    v.Shadows u ↔ v.name ∈ u.extendedNames extension := by
  simp only [Shadows, extendedNames, h.fileName, Option.some.injEq, List.map_cons, List.map_nil,
    List.mem_cons, List.not_mem_nil, or_false, eq_comm]

/-- Two units in one directory share a file exactly if they share the name of one. -/
theorem Housed.share_file_iff (hu : u.Housed directory extension)
    (hv : v.Housed directory extension') :
    (∃ path ∈ u.files, path ∈ v.files) ↔ ∃ name ∈ u.name :: u.extendedNames extension,
      name ∈ v.name :: v.extendedNames extension' := by
  rw [hu.files, hv.files]
  constructor
  · intro hshared
    obtain ⟨path, hpath, hpath'⟩ := hshared
    obtain ⟨name, hname, rfl⟩ := List.mem_map.mp hpath
    obtain ⟨other, hother, hjoin⟩ := List.mem_map.mp hpath'
    rw [Path.join_inj (hv.noSlash other hother) (hu.noSlash name hname)] at hjoin
    exact ⟨name, hname, hjoin ▸ hother⟩
  · intro hshared
    obtain ⟨name, hname, hname'⟩ := hshared
    exact ⟨_, List.mem_map_of_mem hname, List.mem_map_of_mem hname'⟩

end

end BuildUnit

namespace UnitGraph

open FileSystem

/-- Two discovered units share a file exactly if one of them is named like a file of the other. -/
theorem share_file_iff_shadows {extract : Extractor} {fs : FileSystem} {path : Path}
    {g : UnitGraph} {u v : BuildUnit} (hfound : (discoverWith extract fs path).2 = .ok g)
    (hkept : fs.WellKept) (hu : u ∈ g.units) (hv : v ∈ g.units) (hne : u ≠ v) :
    (∃ path ∈ u.files, path ∈ v.files) ↔ u.Shadows v ∨ v.Shadows u := by
  have hlinked := linked_of_discoverWith hfound
  obtain ⟨asked, location, hcanonical, hdirectory, hunits⟩ := hlinked.found
  have hnames : ∀ n ∈ location.map FileName.shown, IsOrdinary n := by
    intro n hn
    obtain ⟨name, hname, rfl⟩ := List.mem_map.mp hn
    exact (hkept.canonicalize hcanonical name hname).isOrdinary_shown
  have hhoused : ∀ w ∈ g.units, ∃ extension, w.Housed g.directory extension := by
    intro w hw
    obtain ⟨file, hfile, hfoundAs⟩ := hunits w hw
    rw [hdirectory, BuildPlan.path_eq_rooted] at hfoundAs ⊢
    exact BuildUnit.housed_of_foundAs hnames (hkept.fileNames hfile) hfoundAs
  obtain ⟨extension, huh⟩ := hhoused u hu
  obtain ⟨extension', hvh⟩ := hhoused v hv
  have hapart : u.name ≠ v.name := fun heq => hne (hlinked.eq_of_name hu hv heq)
  rw [huh.share_file_iff hvh, BuildUnit.shadows_iff hvh, BuildUnit.shadows_iff huh]
  constructor
  · intro hshared
    obtain ⟨name, hname, hname'⟩ := hshared
    rcases List.mem_cons.mp hname with rfl | hname <;>
      rcases List.mem_cons.mp hname' with heq | hname'
    · exact absurd heq hapart
    · exact Or.inl hname'
    · exact Or.inr (heq ▸ hname)
    · -- the extensions of both names are of one length
      obtain ⟨e, he, hwhole⟩ := BuildUnit.mem_extendedNames huh hname
      obtain ⟨e', he', hwhole'⟩ := BuildUnit.mem_extendedNames hvh hname'
      exact absurd (eq_of_extended (he.trans he'.symm) (hwhole.symm.trans hwhole')) hapart
  · intro hshadow
    rcases hshadow with hname | hname
    · exact ⟨u.name, List.mem_cons_self, List.mem_cons_of_mem _ hname⟩
    · exact ⟨v.name, List.mem_cons_of_mem _ hname, List.mem_cons_self⟩

/-! ### A source that is an artifact -/

namespace Sample

/-- The second source is named after the first one. -/
def twice : FileSystem where
  entries := [
    ([FileName.ofText "w"], .directory 0),
    ([FileName.ofText "w", FileName.ofText "a.sql"], .file "SELECT 1".toUTF8 1 false),
    ([FileName.ofText "w", FileName.ofText "a.sql.sql"], .file "SELECT 2".toUTF8 1 false)]
  workingDirectory := []
  now := 2

def short : BuildUnit :=
  ⟨"a", ⟨"/w/a.sql"⟩, ⟨"/w/a"⟩⟩

def long : BuildUnit :=
  ⟨"a.sql", ⟨"/w/a.sql.sql"⟩, ⟨"/w/a.sql"⟩⟩

/-- Both units, which do not refer to each other. -/
def apart : UnitGraph :=
  ⟨⟨"/w"⟩, [short, long], Graph.ofEdges ["a", "a.sql"] []⟩

theorem find_short : twice.find ⟨"/w/a.sql"⟩ =
    .ok ([FileName.ofText "w", FileName.ofText "a.sql"], .file "SELECT 1".toUTF8 1 false) :=
  find_of_walk ["w", "a.sql"] (by decide) (by decide) (by cbv)

theorem find_long : twice.find ⟨"/w/a.sql.sql"⟩ =
    .ok ([FileName.ofText "w", FileName.ofText "a.sql.sql"], .file "SELECT 2".toUTF8 1 false) :=
  find_of_walk ["w", "a.sql.sql"] (by decide) (by decide) (by cbv)

theorem discover_twice : (discover twice ⟨"/w"⟩).2 = .ok apart := by
  have hcanonical : twice.canonicalize ⟨"/w"⟩ = .ok [FileName.ofText "w"] := by cbv
  have hpath : Location.path [FileName.ofText "w"] = ⟨"/w"⟩ := by cbv
  have hscan : scan ⟨"/w"⟩ [] (fileNames twice [FileName.ofText "w"]) =
      ⟨[short, long], [], none⟩ := by cbv
  have hshort : short.sourceText twice = .ok "SELECT 1" := readText_of_find find_short
  have hlong : long.sourceText twice = .ok "SELECT 2" := readText_of_find find_long
  have hnone : Reference.names "SELECT 1" = [] ∧ Reference.names "SELECT 2" = [] := by
    constructor <;> cbv
  simp only [discover, discoverWith, hcanonical, hpath, hscan, ofScan, linkAll, hshort, hlong, link,
    hnone]
  rfl

theorem wellKept_twice : twice.WellKept :=
  .of_listing "w" ["a.sql", "a.sql.sql"] rfl (by cbv) rfl (by decide)

/-- The program of the second unit is written. -/
def generated (program : ByteArray) : FileSystem :=
  { twice with
    entries := [
      ([FileName.ofText "w", FileName.ofText "a.sql.cpp"], .file program 2 false),
      ([FileName.ofText "w"], .directory 2),
      ([FileName.ofText "w", FileName.ofText "a.sql"], .file "SELECT 1".toUTF8 1 false),
      ([FileName.ofText "w", FileName.ofText "a.sql.sql"], .file "SELECT 2".toUTF8 1 false)] }

/-- The artifact of the second unit is made. -/
def built (program artifact : ByteArray) (executable : Bool) : FileSystem :=
  { twice with
    entries := [
      ([FileName.ofText "w", FileName.ofText "a.sql"], .file artifact 2 executable),
      ([FileName.ofText "w", FileName.ofText "a.sql.cpp"], .file program 2 false),
      ([FileName.ofText "w"], .directory 2),
      ([FileName.ofText "w", FileName.ofText "a.sql.sql"], .file "SELECT 2".toUTF8 1 false)] }

theorem write_program (program : ByteArray) :
    twice.write ⟨"/w/a.sql.cpp"⟩ program = .ok (generated program) := by
  have hnone : twice.resolve true ⟨"/w/a.sql.cpp"⟩ =
      .ok ⟨[FileName.ofText "w", FileName.ofText "a.sql.cpp"], none⟩ :=
    resolve_of_walk ["w", "a.sql.cpp"] (by decide) (by decide) (by cbv)
  rw [write_missing hnone (by decide)]
  cbv

theorem read_program (program : ByteArray) :
    (generated program).read ⟨"/w/a.sql.cpp"⟩ = .ok program := by
  refine read_eq_ok.mpr ⟨[FileName.ofText "w", FileName.ofText "a.sql.cpp"], 2, false, ?_⟩
  exact find_of_walk ["w", "a.sql.cpp"] (by decide) (by decide) (by cbv)

theorem find_artifact (program artifact : ByteArray) (executable : Bool) :
    (built program artifact executable).find ⟨"/w/a.sql"⟩ =
      .ok ([FileName.ofText "w", FileName.ofText "a.sql"], .file artifact 2 executable) :=
  find_of_walk ["w", "a.sql"] (by decide) (by decide) (by cbv)

theorem write_artifact (program artifact : ByteArray) :
    (generated program).write ⟨"/w/a.sql"⟩ artifact = .ok (built program artifact false) := by
  have hsource : (generated program).resolve true ⟨"/w/a.sql"⟩ =
      .ok ⟨[FileName.ofText "w", FileName.ofText "a.sql"],
        some (.file "SELECT 1".toUTF8 1 false)⟩ :=
    resolve_of_walk ["w", "a.sql"] (by decide) (by decide) (by cbv)
  simp only [write, hsource]
  cbv

theorem setExecutable_artifact (program artifact : ByteArray) :
    (built program artifact false).setExecutable ⟨"/w/a.sql"⟩ true =
      .ok (built program artifact true) := by
  simp only [setExecutable, find_artifact]
  cbv

/-- Every text is a query, and all artifacts are alike. -/
def compiling : Collaborators :=
  ⟨fun _ => .ok (), .prompt fun _ => "artifact".toUTF8, fun _ fs => .refused fs .notFound⟩

theorem compile_long : (long.compile compiling false twice).files =
    built (Program.render long "SELECT 2").source.toUTF8 "artifact".toUTF8 true := by
  have hstale : Staleness.ofUnit twice long = .ok .outOfDate := by
    simp only [Staleness.ofUnit, Staleness.check, modified, long, find_short, find_long]
    rfl
  have hsibling : long.program = ⟨"/w/a.sql.cpp"⟩ := by decide
  have hprogram : (Program.render long "SELECT 2").path = ⟨"/w/a.sql.cpp"⟩ := hsibling
  have htext : long.sourceText twice = .ok "SELECT 2" := readText_of_find find_long
  have hvalid : compiling.validator "SELECT 2" = .ok () := rfl
  have hcall : compiling.toolchain ⟨"/w/a.sql.cpp"⟩ long.artifact
      (generated (Program.render long "SELECT 2").source.toUTF8) =
      ⟨.ok .succeeded, built (Program.render long "SELECT 2").source.toUTF8 "artifact".toUTF8 true,
        .empty⟩ := by
    have hartifact : long.artifact = ⟨"/w/a.sql"⟩ := rfl
    simp only [compiling, Toolchain.prompt, readText_eq_ok.mpr (read_program _), hartifact,
      write_artifact, setExecutable_artifact]
  have hneeds : (!false && !Staleness.outOfDate.needsRebuild) = false := rfl
  rw [BuildUnit.compile]
  simp only [hstale, hneeds, BuildUnit.build, BuildUnit.produce, BuildUnit.check, htext, hvalid,
    Step.andThen, BuildUnit.place, hprogram, writeText, write_program, BuildUnit.callCompiler,
    hcall]
  rfl

end Sample

/-- Two sources of which one is named after the other make units that share a file. -/
theorem twice_shares_file : ∃ path ∈ Sample.short.files, path ∈ Sample.long.files :=
  (share_file_iff_shadows Sample.discover_twice Sample.wellKept_twice
    (List.mem_cons_self) (List.mem_cons_of_mem _ List.mem_cons_self) (by decide)).mpr
    (Or.inr (Or.inl (by decide)))

/-- To compile the second of these units puts its artifact in the place of the source of the
first. -/
theorem source_overwritten :
    (discover Sample.twice ⟨"/w"⟩).2 = .ok Sample.apart ∧
      Sample.apart.units = [Sample.short, Sample.long] ∧ Sample.short ≠ Sample.long ∧
      Sample.short.sourceText Sample.twice = .ok "SELECT 1" ∧
      Sample.short.sourceText (Sample.long.compile Sample.compiling false Sample.twice).files =
        .ok "artifact" := by
  refine ⟨Sample.discover_twice, rfl, by decide, readText_of_find Sample.find_short, ?_⟩
  rw [Sample.compile_long]
  exact readText_of_find (Sample.find_artifact _ _ _)

end UnitGraph

end QueryBuild

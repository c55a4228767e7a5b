import QueryBuild.Proofs.Build.Overlap
import QueryBuild.Proofs.Discovery.Scan
import QueryBuild.Proofs.Path.Component
/-!
# The files of one unit

The unit of a name in a directory has four files there, which are named after it. However the
directory is written and whatever dots are in the name, the source alone tells the unit: taking its
stem for a name gives the same unit again.
-/

namespace QueryBuild

namespace Path

/-- Different names below the same directory give different paths, however it is written. -/
theorem pairwise_join {directory : Path} (h : directory.isAbsolute = true)
    {files : List (Path × String)} (hbase : ∀ file ∈ files, file.1.Same directory)
    (hnames : ∀ file ∈ files, IsOrdinary file.2) (hnodup : (files.map Prod.snd).Nodup) :
    (files.map fun file => file.1.join file.2).Pairwise fun path other => ¬ path.Same other := by
  rw [List.pairwise_map]
  refine (List.pairwise_map.mp hnodup).imp_of_mem fun {file other} hfile hother hne hsame => hne ?_
  have hbases := (hbase file hfile).trans (hbase other hother).symm
  have habsolute : file.1.isAbsolute = true := (hbase file hfile).isAbsolute.trans h
  exact (same_join_iff hbases habsolute (hnames file hfile) (hnames other hother)).mp hsame

end Path

namespace BuildUnit

/-- The names of the files of a unit, that of the artifact first. -/
def fileNames (name : String) : List String :=
  [name, name ++ ".sql", name ++ ".cpp", name ++ ".csv"]

theorem nodup_fileNames (name : String) : (fileNames name).Nodup := by
  have hmapped : fileNames name = ["", ".sql", ".cpp", ".csv"].map (name ++ ·) := by
    simp [fileNames]
  rw [hmapped]
  exact List.Nodup.map (fun _ _ => (String.append_right_inj name).mp) (by decide)

theorem fileNames_eq (name : String) :
    fileNames name = [name, name ++ "." ++ sourceExtension, name ++ "." ++ programExtension,
      name ++ "." ++ outputExtension] := by
  simp only [fileNames, String.append_assoc]
  rfl

theorem isOrdinary_fileNames {name : String} (hname : IsOrdinary name) :
    ∀ file ∈ fileNames name, IsOrdinary file := by
  have hextended : ∀ extension, extension ≠ "" ∧ '/' ∉ extension.toList →
      IsOrdinary (name ++ "." ++ extension) :=
    fun _ => IsOrdinary.extended ⟨hname.nonempty, hname.noSlash⟩
  rw [fileNames_eq]
  simp only [List.forall_mem_cons]
  exact ⟨hname, hextended _ (by decide), hextended _ (by decide), hextended _ (by decide), by simp⟩

section

variable {directory : Path} {name : String}

/-- The source lies below the directory as it is written, and the other files below the directory
as far as that carries meaning. -/
theorem files_inDirectory (h : directory.isAbsolute = true) (hname : IsOrdinary name) :
    (inDirectory directory name).directory = directory.tidy ∧
      (inDirectory directory name).files =
        ([directory.tidy, directory, directory.tidy, directory.tidy].zip (fileNames name)).map
          fun file => file.1.join file.2 := by
  have hsource : IsOrdinary (name ++ "." ++ sourceExtension) :=
    isOrdinary_fileNames hname _ (by simp [fileNames_eq])
  have hdirectory : (inDirectory directory name).directory = directory.tidy := by
    rw [BuildUnit.directory, inDirectory, ofSource, Path.parent?_join h hsource]
    rfl
  have hartifact : (inDirectory directory name).artifact = directory.tidy.join name :=
    Path.withFileName_join h hsource
  refine ⟨hdirectory, ?_⟩
  rw [files, program, output, sibling, sibling, hdirectory, hartifact, fileNames_eq]
  rfl

theorem stem?_source (h : directory.isAbsolute = true) (hname : IsOrdinary name) :
    (inDirectory directory name).source.stem? = some name := by
  have hsource : IsOrdinary (name ++ "." ++ sourceExtension) :=
    isOrdinary_fileNames hname _ (by simp [fileNames_eq])
  have hchars : (name ++ "." ++ sourceExtension).toList =
      name.toList ++ '.' :: ['s', 'q', 'l'] := by
    simp [sourceExtension]
  have hstem : name.toList ≠ [] := fun heq => hname.nonempty (String.toList_inj.mp heq)
  have hcut : Path.splitName '.' (name.toList ++ '.' :: ['s', 'q', 'l']) =
      (name.toList, some ['s', 'q', 'l']) :=
    FileName.splitName_append hstem (by decide) (by decide)
  rw [inDirectory, ofSource, Path.stem?, Path.fileName?_join h hsource, Option.map_some, hchars,
    hcut, String.ofList_toList]

theorem scan_source (directory : Path) (hname : IsOrdinary name) :
    UnitGraph.scan directory [] [FileName.ofText (name ++ "." ++ sourceExtension)] =
      ⟨[inDirectory directory name], [], none⟩ := by
  obtain ⟨hsource, hstem⟩ := FileName.isSourceNamed_iff.mp
    ⟨hname.nonempty, sourceExtension, by cbv, rfl⟩
  rw [UnitGraph.scan, if_pos hsource, hstem]
  simp only [List.find?_nil, UnitGraph.scan, FileName.shown_ofText, List.nil_append]
  rfl

/-- The unit of a name in a directory from the root, however that is written. Its directory is that
one, and is written in the same way if there is nothing in it but names behind single slashes. The
four files are different, are named after the unit, and lie in the directory. The unit is made again
of its source and of the stem of that, also by a scan. -/
theorem unit_in_directory (h : directory.isAbsolute = true) (hname : IsOrdinary name) :
    let u := inDirectory directory name
    u.directory.Same directory ∧
      (∀ names, (∀ n ∈ names, IsOrdinary n) → directory = Path.rooted names →
        u.directory = directory) ∧
      (∀ path ∈ u.files, path.parent? = some u.directory) ∧
      u.files.map Path.fileName? = (fileNames name).map some ∧
      (u.files.Pairwise fun path other => ¬ path.Same other) ∧
      (u.source.stem?.map fun stem => ofSource stem u.source) = some u ∧
      UnitGraph.scan directory [] [FileName.ofText (name ++ "." ++ sourceExtension)] =
        ⟨[u], [], none⟩ := by
  dsimp only
  have hsame := Path.tidy_same h
  obtain ⟨hdirectory, hfiles⟩ := files_inDirectory h hname
  -- whether a file is written below the directory or below the tidy one, its parent is the same
  have hplaced : ∀ file ∈ [directory.tidy, directory, directory.tidy, directory.tidy].zip
      (fileNames name), file.1.Same directory ∧ file.1.isAbsolute = true ∧
        file.1.tidy = directory.tidy ∧ IsOrdinary file.2 := by
    intro file hfile
    obtain ⟨hbase, hfileName⟩ := List.of_mem_zip hfile
    have hordinary := isOrdinary_fileNames hname _ hfileName
    have hcase : file.1 = directory.tidy ∨ file.1 = directory := by
      simp only [List.mem_cons, List.not_mem_nil, or_false] at hbase
      tauto
    rcases hcase with hbase | hbase
    · rw [hbase]
      exact ⟨hsame, hsame.isAbsolute.trans h, Path.tidy_tidy h, hordinary⟩
    · rw [hbase]
      exact ⟨.refl directory, h, rfl, hordinary⟩
  have hzip : ([directory.tidy, directory, directory.tidy, directory.tidy].zip
      (fileNames name)).map Prod.snd = fileNames name :=
    List.map_snd_zip (Nat.le_refl 4)
  rw [hdirectory, hfiles]
  refine ⟨hsame, ?_, ?_, ?_, ?_, ?_, scan_source directory hname⟩
  · rintro names hnames rfl
    exact Path.tidy_rooted hnames
  · intro path hpath
    obtain ⟨file, hfile, rfl⟩ := List.mem_map.mp hpath
    obtain ⟨-, habsolute, htidy, hordinary⟩ := hplaced file hfile
    rw [Path.parent?_join habsolute hordinary, htidy]
  · rw [← hzip, List.map_map, List.map_map]
    refine List.map_congr_left fun file hfile => ?_
    obtain ⟨-, habsolute, -, hordinary⟩ := hplaced file hfile
    exact Path.fileName?_join habsolute hordinary
  · exact Path.pairwise_join h (fun file hfile => (hplaced file hfile).1)
      (fun file hfile => (hplaced file hfile).2.2.2) (hzip.symm ▸ nodup_fileNames name)
  · rw [stem?_source h hname]
    rfl

/-- A name with dots in it, at its start too. -/
theorem unit_of_dotted_name :
    (Path.rooted ["data", "pipeline"]).isAbsolute = true ∧ IsOrdinary ".daily.orders" ∧
      (∀ n ∈ ["data", "pipeline"], IsOrdinary n) ∧
      (inDirectory (Path.rooted ["data", "pipeline"]) ".daily.orders").directory =
        Path.rooted ["data", "pipeline"] ∧
      ((inDirectory (Path.rooted ["data", "pipeline"]) ".daily.orders").source.stem?.map fun stem =>
        ofSource stem (inDirectory (Path.rooted ["data", "pipeline"]) ".daily.orders").source) =
          some (inDirectory (Path.rooted ["data", "pipeline"]) ".daily.orders") := by
  have habsolute : (Path.rooted ["data", "pipeline"]).isAbsolute = true := by decide
  have hordinary : IsOrdinary ".daily.orders" := by decide
  have hnames : ∀ n ∈ ["data", "pipeline"], IsOrdinary n := by decide
  obtain ⟨-, hdirectory, -, -, -, hagain, -⟩ := unit_in_directory habsolute hordinary
  exact ⟨habsolute, hordinary, hnames, hdirectory _ hnames rfl, hagain⟩

end

end BuildUnit

end QueryBuild

import QueryBuild.Proofs.CommandLine.Ending
import QueryBuild.Proofs.Files.Written
/-!
# What generating the program of a file writes

A call that generates the program of a file writes that program, and then the report if it is asked
for one. It spares the file that it reads, unless the program has the same place: the file is named
like a program, or a link with the name of the program leads to it.
-/

namespace QueryBuild

theorem FileName.splitName_none {α : Type} [BEq α] {dot : α} {name stem : List α}
    (h : Path.splitName dot name = (stem, none)) : stem = name := by
  rw [Path.splitName] at h
  split at h
  · exact (Prod.mk.inj h).1.symm
  split at h
  · exact (Prod.mk.inj h).1.symm
  · exact (Prod.mk.inj h).1.symm
  · cases (Prod.mk.inj h).2

theorem FileName.IsProper.stem {name : FileName} (h : name.IsProper) {stem : String}
    (hstem : name.split.1.text? = some stem) : stem ≠ "" ∧ '/' ∉ stem.toList := by
  have hpart : name.split.1 ≠ [] ∧ name.split.1 ⊆ name := by
    rw [FileName.split]
    cases hcut : Path.splitName '.'.toUInt8 name with
    | mk bytes extension =>
      cases extension with
      | none =>
        rw [FileName.splitName_none hcut]
        exact ⟨h.nonempty, List.Subset.refl name⟩
      | some extension =>
        obtain ⟨hwhole, hnonempty⟩ := FileName.splitName_some hcut
        exact ⟨hnonempty, hwhole ▸ List.subset_append_left _ _⟩
  rw [FileName.text?_eq_some.mp hstem] at hpart
  obtain ⟨hnonempty, hsubset⟩ := hpart
  refine ⟨?_, fun hslash => ?_⟩
  · rintro rfl
    exact hnonempty (by cbv)
  · exact h.noSlash (hsubset ((FileName.byteOf_mem_ofText (by decide)).mpr hslash))

namespace CommandLine

open FileSystem

variable {fs files : FileSystem} {file : Path} {location : Location} {u : BuildUnit} {sql : String}
  {validator : Validator}

theorem unitOfFile_eq_ok (hlocation : fs.canonicalize file = .ok location)
    (hu : unitOfFile fs file = .ok u) :
    ∃ name stem, location.getLast? = some name ∧ name.split.1.text? = some stem ∧
      u = .ofSource stem location.path := by
  rw [unitOfFile] at hu
  simp only [hlocation] at hu
  split at hu
  · cases hu
  · rename_i stem hstem
    cases hu
    obtain ⟨bytes, hbytes, htext⟩ := Option.bind_eq_some_iff.mp hstem
    obtain ⟨name, hname, rfl⟩ := Option.map_eq_some_iff.mp hbytes
    exact ⟨name, stem, hname, htext, rfl⟩

/-- What it takes to generate the program of a file, and the files with the program. -/
structure Generates (validator : Validator) (fs : FileSystem) (file : Path) (u : BuildUnit)
    (sql : String) (files : FileSystem) : Prop where
  unit : unitOfFile fs file = .ok u
  text : u.sourceText fs = .ok sql
  valid : validator sql = .ok ()
  written : fs.writeText u.program (Program.render u sql).source = .ok files

theorem Generates.performCodegen (h : Generates validator fs file u sql files) (report : Report) :
    (performCodegen validator report file fs).files = files ∧
      (performCodegen validator report file fs).report = report ∧
      (performCodegen validator report file fs).trouble = none := by
  have hgenerate := BuildUnit.generate_eq_ok.mpr ⟨sql, h.text, h.valid, rfl, h.written⟩
  rw [CommandLine.performCodegen, h.unit]
  simp only [hgenerate, and_self]

theorem severity_of_unitOfFile {d : Diagnostic} (h : unitOfFile fs file = .error d) :
    d.severity = .error := by
  rw [unitOfFile] at h
  dsimp only at h
  split at h
  · cases h
    rfl
  · split at h
    · cases h
      rfl
    · cases h

/-- A program is either generated, or an error is reported and no file is changed. -/
theorem performCodegen_cases (validator : Validator) (report : Report) (file : Path)
    (fs : FileSystem) :
    (∃ u sql,
        Generates validator fs file u sql (performCodegen validator report file fs).files ∧
          (performCodegen validator report file fs).report = report) ∨
      (∀ u sql files, ¬ Generates validator fs file u sql files) ∧
        (performCodegen validator report file fs).files = fs ∧
        ∃ d : Diagnostic, d.severity = .error ∧
          (performCodegen validator report file fs).report = report.addDiagnostic d := by
  rw [performCodegen]
  cases hunit : unitOfFile fs file with
  | error d =>
    refine Or.inr ⟨fun u sql files h => ?_, rfl, d, severity_of_unitOfFile hunit, rfl⟩
    cases hunit.symm.trans h.unit
  | ok u =>
    dsimp only
    cases hgenerate : u.generate validator fs with
    | error e =>
      refine Or.inr ⟨fun v sql files h => ?_, rfl, _, e.severity_toDiagnostic, rfl⟩
      cases hunit.symm.trans h.unit
      have hok := BuildUnit.generate_eq_ok.mpr ⟨sql, h.text, h.valid, rfl, h.written⟩
      cases hgenerate.symm.trans hok
    | ok generated =>
      obtain ⟨program, files⟩ := generated
      obtain ⟨sql, htext, hvalid, rfl, hwritten⟩ := BuildUnit.generate_eq_ok.mp hgenerate
      exact Or.inl ⟨u, sql, ⟨hunit, htext, hvalid, hwritten⟩, rfl⟩

/-- A file is named like the program of its unit. -/
def NamedLikeProgram (location : Location) (u : BuildUnit) : Prop :=
  location.getLast? = some (.ofText (u.name ++ "." ++ BuildUnit.programExtension))

/-- The program of a unit was written, and nothing else. The file that it was made of reads what it
read before, unless the program was written into it: that takes a file that is named like a program,
or a link with the name of the program. -/
structure ProgramPlaced (fs : FileSystem) (file : Path) (location : Location) (u : BuildUnit)
    (program : String) (files : FileSystem) (target : Location) : Prop where
  place : ∃ entry, fs.resolve true u.program = .ok ⟨target, entry⟩
  wrote : WroteFile fs files target program.toUTF8
  spared : target ≠ location → files.read file = fs.read file
  lost : target = location → files.readText file = .ok program
  cause : target = location → NamedLikeProgram location u ∨
    ∃ place link, fs.resolve false u.program = .ok ⟨place, some (.link link)⟩
  named : NamedLikeProgram location u → u.program = u.source

theorem Generates.placed (hkept : fs.WellKept) (hlocation : fs.canonicalize file = .ok location)
    (h : Generates validator fs file u sql files) :
    ∃ target, ProgramPlaced fs file location u (Program.render u sql).source files target := by
  obtain ⟨name, stem, hname, hstem, rfl⟩ := unitOfFile_eq_ok hlocation h.unit
  obtain ⟨directory, rfl⟩ := List.getLast?_eq_some_iff.mp hname
  have hproper := hkept.canonicalize hlocation
  have hnames : ∀ n ∈ directory.map FileName.shown, IsOrdinary n := by
    intro n hn
    obtain ⟨part, hpart, rfl⟩ := List.mem_map.mp hn
    exact (hproper part (List.mem_append_left _ hpart)).isOrdinary_shown
  have hlast : name.IsProper := hproper name (by simp)
  -- both the file and its program are entries of the directory whose names are shown as texts
  have hpath : Location.path (directory ++ [name]) =
      Path.rooted (directory.map FileName.shown ++ [name.shown]) := by
    rw [BuildPlan.path_eq_rooted, List.map_append, List.map_singleton]
  have hplain := hlast.stem hstem
  have hprogram : (BuildUnit.ofSource stem (Location.path (directory ++ [name]))).program =
      Path.rooted (directory.map FileName.shown ++ [stem ++ "." ++ BuildUnit.programExtension]) :=
    hpath ▸ BuildUnit.sibling_ofSource hnames hlast.isOrdinary_shown hplain (by decide)
  obtain ⟨target, entry, hresolve, hwrote⟩ := wroteFile_of_write h.written
  refine ⟨target, ⟨entry, hresolve⟩, hwrote, fun hne => hwrote.read_of_ne hlocation hne.symm,
    fun heq => readText_eq_ok.mpr (hwrote.read_self (heq ▸ hlocation)), fun heq => ?_,
    fun hnamed => ?_⟩
  · rw [hprogram] at hresolve
    rcases resolve_last_cases hnames (.extended hplain (by decide)) hresolve with hlink | hend
    · exact Or.inr (hprogram ▸ hlink)
    · exact Or.inl (heq ▸ hend)
  · rw [NamedLikeProgram, List.getLast?_concat, Option.some.injEq] at hnamed
    rw [hnamed, FileName.shown_ofText] at hpath
    rw [hprogram, BuildUnit.ofSource, hnamed, hpath]
    rfl

/-- A call that did not break off leaves the files of its task, and the report in them if it was
asked for one. -/
theorem files_of_conclude {i : Invocation} (errors : String) {p : Performance}
    (htrouble : p.trouble = none) :
    (conclude i errors p).files = p.files ∨ ∃ path, i.report = some path ∧
      p.files.writeText path p.report.toJson.text = .ok (conclude i errors p).files := by
  cases hsave : saveReport i p.report p.files with
  | error e =>
    rw [conclude, htrouble]
    simp only [hsave, true_or]
  | ok saved =>
    obtain ⟨files, note⟩ := saved
    rw [(conclude_of_saved errors htrouble hsave).2]
    rw [saveReport] at hsave
    split at hsave
    · cases hsave
      exact Or.inl rfl
    · rename_i path hpath
      obtain ⟨written, hwritten, hpair⟩ := ok_of_map hsave
      cases hpair
      exact Or.inr ⟨path, hpath, hwritten⟩

theorem saveReport_of_none {i : Invocation} (h : i.report = none) (report : Report)
    (fs : FileSystem) : saveReport i report fs = .ok (fs, "") := by
  rw [saveReport, h]

theorem status_of_hasErrors {i : Invocation} (errors : String) {p : Performance}
    (htrouble : p.trouble = none) (herrors : p.report.hasErrors = true) :
    (conclude i errors p).status = 1 := by
  cases hsave : saveReport i p.report p.files with
  | error e =>
    rw [conclude, htrouble]
    simp only [hsave]
  | ok saved => rw [(conclude_of_saved errors htrouble hsave).1, if_pos herrors]

theorem hasErrors_addDiagnostic (report : Report) {d : Diagnostic} (h : d.severity = .error) :
    (report.addDiagnostic d).hasErrors = true := by
  simp [Report.hasErrors, Report.addDiagnostic, h, Summary.countSeverity]

theorem call_of_settings_error (provide : Provider) {arguments : List String} {c : Circumstances}
    {i : Invocation} {e : SettingsError} (hparse : Invocation.ofArguments arguments = .ok i)
    (hsettings : Settings.discover c.files i.settings (some i.task.directory) = .error e) :
    (callWith provide arguments c).status = 1 ∧ (callWith provide arguments c).files = c.files := by
  rw [callWith, hparse]
  simp only [Invocation.perform, hsettings, and_self]

theorem dialect_overrideCompiler (settings : Settings) (compiler : Option String) :
    (settings.overrideCompiler compiler).dialect = settings.dialect := by
  cases compiler with
  | none => rfl
  | some name =>
    rw [Settings.overrideCompiler]
    split
    · rfl
    · rfl

/-- On a computer the dialect of the settings tells which texts are queries. -/
theorem validator_help (c : Circumstances) (settings : Settings) :
    (Provider.help Host.collaborators c settings).validator = .ofDialect settings.dialect :=
  congrArg Validator.ofDialect (dialect_overrideCompiler settings _)

/-- A call to generate a program starts with a report without errors. -/
theorem performance_of_codegen {i : Invocation} (htask : i.task = .codegen file) (c : Circumstances)
    (provide : Provider) (settings : Settings) : ∃ report : Report, report.hasErrors = false ∧
      c.performance provide i settings =
        performCodegen (provide.help c settings).validator report file c.files := by
  rw [Circumstances.performance, Invocation.carryOut, htask]
  exact ⟨_, rfl, rfl⟩

theorem call_of_generates (provide : Provider) {arguments : List String} {c : Circumstances}
    {i : Invocation} {settings : Settings} {found : Option Path}
    (hparse : Invocation.ofArguments arguments = .ok i)
    (htask : i.task = .codegen file) (hreport : i.report = none)
    (hsettings : Settings.discover c.files i.settings (some i.task.directory) =
      .ok (settings, found))
    (h : Generates (provide.help c settings).validator c.files file u sql files) :
    (callWith provide arguments c).status = 0 ∧ (callWith provide arguments c).files = files := by
  obtain ⟨errors, hcall⟩ := call_eq_conclude provide hparse hsettings
  obtain ⟨report, hclean, hperform⟩ := performance_of_codegen htask c provide settings
  obtain ⟨hfiles, hsame, htrouble⟩ := h.performCodegen report
  obtain ⟨hstatus, hleft⟩ :=
    conclude_of_saved errors htrouble (saveReport_of_none hreport _ _)
  rw [hcall, hperform, hstatus, hleft, hsame, hclean, hfiles]
  exact ⟨rfl, rfl⟩

/-- Whoever helps with it, a call to generate the program of an existing file writes that program
and nothing else, but for the report that it may be asked for. It fails and writes no program if
that cannot be generated. The file reads what it read before, unless it has the place of the
program. -/
theorem codegen_spares_input (provide : Provider) {arguments : List String} {c : Circumstances}
    {i : Invocation} {file : Path} {location : Location}
    (hparse : Invocation.ofArguments arguments = .ok i)
    (htask : i.task = .codegen file) (hkept : c.files.WellKept)
    (hlocation : c.files.canonicalize file = .ok location) :
    let loaded := Settings.discover c.files i.settings (some i.task.directory)
    let ending := callWith provide arguments c
    ∃ files, (ending.files = files ∨ ∃ path text, i.report = some path ∧
        files.writeText path text = .ok ending.files) ∧
      ((∃ settings found u sql target, loaded = .ok (settings, found) ∧
          Generates (provide.help c settings).validator c.files file u sql files ∧
          ProgramPlaced c.files file location u (Program.render u sql).source files target ∧
          (i.report = none → ending.status = 0)) ∨
        (∀ settings found u sql files, loaded = .ok (settings, found) →
          ¬ Generates (provide.help c settings).validator c.files file u sql files) ∧
          files = c.files ∧ ending.status = 1) := by
  dsimp only
  cases hsettings : Settings.discover c.files i.settings (some i.task.directory) with
  | error e =>
    obtain ⟨hstatus, hfiles⟩ := call_of_settings_error provide hparse hsettings
    refine ⟨c.files, Or.inl hfiles, Or.inr ⟨?_, rfl, hstatus⟩⟩
    intro settings found u sql files hloaded
    cases hloaded
  | ok loaded =>
    obtain ⟨settings, found⟩ := loaded
    obtain ⟨errors, hcall⟩ := call_eq_conclude provide hparse hsettings
    obtain ⟨report, hclean, hperform⟩ := performance_of_codegen htask c provide settings
    have htrouble :=
      performCodegen_trouble (provide.help c settings).validator report file c.files
    rw [hcall, hperform]
    refine ⟨_, (files_of_conclude errors htrouble).imp_right fun ⟨path, h⟩ => ⟨path, _, h⟩, ?_⟩
    rcases performCodegen_cases (provide.help c settings).validator report file c.files with
      ⟨u, sql, hgenerates, hreport⟩ | ⟨hnone, hfiles, d, hseverity, hreport⟩
    · obtain ⟨target, hplaced⟩ := hgenerates.placed hkept hlocation
      refine Or.inl ⟨settings, found, u, sql, target, rfl, hgenerates, hplaced, fun hunasked => ?_⟩
      rw [(conclude_of_saved errors htrouble (saveReport_of_none hunasked _ _)).1, hreport, hclean]
      rfl
    · refine Or.inr ⟨?_, hfiles, ?_⟩
      · rintro settings' found' u sql files hloaded
        cases hloaded
        exact hnone u sql files
      · apply status_of_hasErrors errors htrouble
        rw [hreport]
        exact hasErrors_addDiagnostic report hseverity

/-! ### Files in one directory -/

open BuildPlan.Sample (alone first find_alone sourceText_alone)

namespace Sample

theorem wellKept_alone : alone.WellKept :=
  .of_listing "w" ["a.sql"] rfl (by cbv) rfl (by decide)

/-- The only file is a query with the name of a program. -/
def misnamed : FileSystem where
  entries := [
    ([FileName.ofText "w"], .directory 0),
    ([FileName.ofText "w", FileName.ofText "a.cpp"], .file "SELECT 1".toUTF8 1 false)]
  workingDirectory := []
  now := 2

def misnamedUnit : BuildUnit :=
  ⟨"a", ⟨"/w/a.cpp"⟩, ⟨"/w/a"⟩⟩

theorem bare_misnamed : Bare misnamed :=
  ⟨rfl, by cbv, by cbv, by cbv, by cbv, by cbv⟩

theorem find_misnamed : misnamed.find ⟨"/w/a.cpp"⟩ =
    .ok ([FileName.ofText "w", FileName.ofText "a.cpp"], .file "SELECT 1".toUTF8 1 false) :=
  find_of_walk ["w", "a.cpp"] (by decide) (by decide) (by cbv)

theorem unitOfFile_misnamed : unitOfFile misnamed ⟨"/w/a.cpp"⟩ = .ok misnamedUnit := by
  have hlocation : misnamed.canonicalize ⟨"/w/a.cpp"⟩ =
      .ok [FileName.ofText "w", FileName.ofText "a.cpp"] := by
    rw [canonicalize, find_misnamed]
    rfl
  rw [unitOfFile, hlocation]
  cbv

theorem valid_query : Validator.ofDialect .duckdb "SELECT 1" = .ok () := by
  have hvalid : Query.validate .duckdb "SELECT 1" = .ok () := by decide +kernel
  rw [Validator.ofDialect, hvalid]
  rfl

theorem write_misnamed (program : String) : ∃ files,
    misnamed.writeText misnamedUnit.program program = .ok files := by
  have hprogram : misnamedUnit.program = ⟨"/w/a.cpp"⟩ := by decide
  rw [writeText, write, hprogram, find_eq_ok.mp find_misnamed]
  exact ⟨_, rfl⟩

/-- What a call to generate the program of a file asks for. -/
def generating (file : String) : Invocation :=
  ⟨none, false, none, .codegen ⟨file⟩⟩

theorem canonicalize_alone : alone.canonicalize ⟨"/w/a.sql"⟩ =
    .ok [FileName.ofText "w", FileName.ofText "a.sql"] := by
  rw [canonicalize, show alone.find ⟨"/w/a.sql"⟩ = _ from find_alone]
  rfl

theorem unitOfFile_alone : unitOfFile alone ⟨"/w/a.sql"⟩ = .ok first := by
  rw [unitOfFile, canonicalize_alone]
  cbv

theorem resolve_program : alone.resolve false first.program =
    .ok ⟨[FileName.ofText "w", FileName.ofText "a.cpp"], none⟩ := by
  have hprogram : first.program = ⟨"/w/a.cpp"⟩ := by decide
  rw [hprogram]
  exact resolve_of_walk ["w", "a.cpp"] (by decide) (by decide) (by cbv)

end Sample

/-- A query in a file of its own name is still there. -/
theorem codegen_spares_query :
    (call ["codegen", "/w/a.sql"] ⟨[], "", alone⟩).files.readText ⟨"/w/a.sql"⟩ =
      .ok "SELECT 1" := by
  have hparse : Invocation.ofArguments ["codegen", "/w/a.sql"] =
      .ok (Sample.generating "/w/a.sql") := by cbv
  obtain ⟨files, hreport, hcase⟩ := codegen_spares_input Host.collaborators
    (c := ⟨[], "", alone⟩) hparse rfl Sample.wellKept_alone Sample.canonicalize_alone
  have hunasked : ¬ ∃ path text, (Sample.generating "/w/a.sql").report = some path ∧
      files.writeText path text = .ok (call ["codegen", "/w/a.sql"] ⟨[], "", alone⟩).files := by
    rintro ⟨path, text, hnone, -⟩
    cases hnone
  rw [call, hreport.resolve_right hunasked]
  have hread : files.read ⟨"/w/a.sql"⟩ = alone.read ⟨"/w/a.sql"⟩ := by
    rcases hcase with ⟨settings, found, u, sql, target, -, hgenerates, hplaced, -⟩ | ⟨-, hsame, -⟩
    · cases Sample.unitOfFile_alone.symm.trans hgenerates.unit
      refine hplaced.spared fun hself => ?_
      rcases hplaced.cause hself with hnamed | ⟨place, link, hlink⟩
      · have hname : "a.sql" = "a.cpp" := FileName.ofText_inj.mp (Option.some.inj hnamed)
        exact absurd hname (by decide)
      · cases Sample.resolve_program.symm.trans hlink
    · rw [hsame]
  rw [readText_eq_ok, hread, ← readText_eq_ok]
  exact sourceText_alone

/-- A query in a file that is named like a program is overwritten by its program. -/
theorem codegen_overwrites_input :
    let ending := call ["codegen", "/w/a.cpp"] ⟨[], "", Sample.misnamed⟩
    let program := Program.render Sample.misnamedUnit "SELECT 1"
    Sample.misnamed.readText ⟨"/w/a.cpp"⟩ = .ok "SELECT 1" ∧ ending.status = 0 ∧
      ending.files.readText ⟨"/w/a.cpp"⟩ = .ok program.source ∧ program.source ≠ "SELECT 1" := by
  intro ending program
  have hread := readText_of_find Sample.find_misnamed
  obtain ⟨files, hwritten⟩ := Sample.write_misnamed program.source
  let settings := Settings.initial (Location.path Sample.misnamed.workingDirectory)
  have hgenerates :
      Generates (Provider.help Host.collaborators ⟨[], "", Sample.misnamed⟩ settings).validator
        Sample.misnamed ⟨"/w/a.cpp"⟩ Sample.misnamedUnit "SELECT 1" files := by
    rw [validator_help]
    exact ⟨Sample.unitOfFile_misnamed, hread, Sample.valid_query, hwritten⟩
  have hparse : Invocation.ofArguments ["codegen", "/w/a.cpp"] =
      .ok (Sample.generating "/w/a.cpp") := by cbv
  obtain ⟨hstatus, hfiles⟩ := call_of_generates Host.collaborators (c := ⟨[], "", Sample.misnamed⟩)
    hparse rfl rfl Sample.bare_misnamed.discover hgenerates
  refine ⟨hread, hstatus, ?_, by decide +kernel⟩
  rw [show ending.files = files from hfiles]
  exact readText_of_writeText hwritten

end CommandLine

end QueryBuild

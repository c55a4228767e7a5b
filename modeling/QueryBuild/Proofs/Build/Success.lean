import QueryBuild.Proofs.Build.Confined
import QueryBuild.Proofs.Build.Failure
/-!
# Compilations that succeed

Nothing keeps a unit from being compiled if its text is read and taken as a query, if its program
and its artifact can be written, and if the compiler is able to make the one from the other. To
compile other units does not change any of this, so a compile phase on such units succeeds.
-/

namespace QueryBuild

namespace FileSystem

/-- A file can be written at a path: there is one, or there is nothing yet. -/
structure Open (fs : FileSystem) (path : Path) : Prop where
  file : namesDirectory path = false
  leads : ∃ location, fs.resolve true path = .ok ⟨location, fs.get? location⟩ ∧
    fs.NoPassage location

section

variable {fs fs' : FileSystem} {path : Path}

theorem Open.of_sameShape (h : fs.Open path) (hshape : SameShape fs fs') : fs'.Open path := by
  obtain ⟨location, hresolve, hpassage⟩ := h.leads
  exact ⟨h.file, location, resolve_of_sameShape hshape hresolve,
    (hshape.passage location).trans hpassage⟩

theorem open_of_missing {location : Location} (hfile : namesDirectory path = false)
    (hresolve : fs.resolve true path = .ok ⟨location, none⟩) : fs.Open path := by
  have hnone := get?_of_resolve hresolve
  refine ⟨hfile, location, by rw [hresolve, hnone], ?_⟩
  rw [NoPassage, hnone]
  rfl

theorem open_of_file {location : Location} {contents : ByteArray} {modified : Instant}
    {executable : Bool} (hfile : namesDirectory path = false)
    (hfind : fs.find path = .ok (location, .file contents modified executable)) :
    fs.Open path := by
  have hsome := get?_of_find hfind
  refine ⟨hfile, location, by rw [find_eq_ok.mp hfind, hsome], ?_⟩
  rw [NoPassage, hsome]
  rfl

theorem modified_missing {location : Location}
    (hresolve : fs.resolve true path = .ok ⟨location, none⟩) :
    fs.modified path = .error .notFound := by
  rw [FileSystem.modified, find, hresolve]
  rfl

theorem Open.cases (h : fs.Open path) :
    ∃ location, fs.resolve true path = .ok ⟨location, none⟩ ∨
      ∃ contents modified executable,
        fs.resolve true path = .ok ⟨location, some (.file contents modified executable)⟩ := by
  obtain ⟨location, hresolve, hpassage⟩ := h.leads
  refine ⟨location, ?_⟩
  cases hentry : fs.get? location with
  | none => exact Or.inl (hentry ▸ hresolve)
  | some entry =>
    rw [NoPassage, hentry] at hpassage
    cases entry with
    | file contents modified executable =>
      exact Or.inr ⟨contents, modified, executable, hentry ▸ hresolve⟩
    | directory => cases hpassage
    | link => cases hpassage

theorem Open.write (h : fs.Open path) (contents : ByteArray) :
    ∃ fs', fs.write path contents = .ok fs' := by
  obtain ⟨location, hnone | ⟨before, modified, executable, hsome⟩⟩ := h.cases
  · exact ⟨_, write_missing hnone h.file contents⟩
  · rw [FileSystem.write, hsome]
    exact ⟨_, rfl⟩

theorem Open.modified (h : fs.Open path) :
    fs.modified path = .error .notFound ∨ ∃ time, fs.modified path = .ok time := by
  obtain ⟨location, hnone | ⟨before, modified, executable, hsome⟩⟩ := h.cases
  · exact Or.inl (modified_missing hnone)
  · right
    rw [FileSystem.modified, find, hsome]
    exact ⟨_, rfl⟩

end

end FileSystem

open FileSystem

/-! ### Compilers -/

/-- A compiler that succeeds wherever the program is read and the artifact can be written. -/
def Toolchain.Able (toolchain : Toolchain) : Prop :=
  ∀ program artifact fs text, fs.readText program = .ok text → fs.Open artifact →
    toolchain.Succeeds program artifact fs

theorem Toolchain.able_prompt (make : String → ByteArray) : (prompt make).Able := by
  intro program artifact fs text hread hopen
  obtain ⟨written, hwritten⟩ := hopen.write (make text)
  obtain ⟨-, location, before, hfind⟩ := write_spec hwritten
  refine ⟨.succeeded, ?_, rfl⟩
  simp only [prompt, hread, hwritten, setExecutable, hfind, Except.map]

/-! ### One unit -/

namespace BuildUnit

/-- Nothing keeps a unit from being compiled. -/
structure Ready (validator : Validator) (fs : FileSystem) (u : BuildUnit) : Prop where
  valid : ∃ sql, u.sourceText fs = .ok sql ∧ validator sql = .ok ()
  program : fs.Open u.program
  artifact : fs.Open u.artifact

variable {validator : Validator} {help : Collaborators} {fs now : FileSystem} {u : BuildUnit}

theorem upToDate_of_newer {edited built : Instant} (hedited : fs.modified u.source = .ok edited)
    (hbuilt : fs.modified u.artifact = .ok built) (hnewer : edited < built) :
    Staleness.ofUnit fs u = .ok .upToDate := by
  simp only [Staleness.ofUnit, Staleness.check, hbuilt, hedited, Except.map, Staleness.compare,
    if_pos hnewer]

theorem missing_of_modified (h : fs.modified u.artifact = .error .notFound) :
    Staleness.ofUnit fs u = .ok .missing := by
  rw [Staleness.ofUnit, Staleness.check, h]
  rfl

theorem Ready.of_sameShape (h : u.Ready validator fs) (hshape : SameShape fs now)
    (hsource : u.sourceText now = u.sourceText fs) : u.Ready validator now where
  valid := by
    rw [hsource]
    exact h.valid
  program := h.program.of_sameShape hshape
  artifact := h.artifact.of_sameShape hshape

theorem Ready.staleness (h : u.Ready validator fs) :
    ∃ staleness, Staleness.ofUnit fs u = .ok staleness := by
  obtain ⟨sql, hread, -⟩ := h.valid
  obtain ⟨location, edited, executable, hfind⟩ := read_eq_ok.mp (readText_eq_ok.mp hread)
  have hedited : fs.modified u.source = .ok edited := modified_eq_ok.mpr ⟨_, hfind, rfl⟩
  rw [Staleness.ofUnit, Staleness.check]
  rcases h.artifact.modified with hmissing | ⟨built, hbuilt⟩
  · rw [hmissing]
    exact ⟨.missing, rfl⟩
  · rw [hbuilt, hedited]
    exact ⟨_, rfl⟩

theorem Ready.build (h : u.Ready help.validator fs) (hable : help.toolchain.Able) :
    (u.build help fs).result = .ok () := by
  obtain ⟨sql, hread, hvalid⟩ := h.valid
  rcases build_cases help u fs with
    ⟨e, events, hproduced, -⟩ | ⟨sql', written, -, -, hwritten, hbuild⟩
  · exfalso
    cases hproduced with
    | unread read => cases hread.symm.trans read
    | refused read verdict =>
      cases hread.symm.trans read
      cases hvalid.symm.trans verdict
    | unwritten read verdict written =>
      obtain ⟨files, hfiles⟩ := h.program.write (Program.render u _).source.toUTF8
      cases hfiles.symm.trans written
  · obtain ⟨hwrites, location, executable, hfind⟩ := write_spec hwritten
    obtain ⟨ended, hended, hwell⟩ := hable u.program u.artifact written _ (readText_of_find hfind)
      (h.artifact.of_sameShape hwrites.shape)
    rw [hbuild]
    simp only [hended, judge, hwell, if_true]

theorem Ready.compile (h : u.Ready help.validator fs) (hable : help.toolchain.Able)
    (force : Bool) : ∃ record, (u.compile help force fs).result = .ok record := by
  obtain ⟨staleness, hstale⟩ := h.staleness
  rw [BuildUnit.compile, hstale]
  dsimp only
  split
  · exact ⟨_, rfl⟩
  · rw [h.build hable]
    exact ⟨_, rfl⟩

end BuildUnit

namespace BuildPlan

/-! ### Several units -/

section

variable {names : List String} {base : Location} {plan : BuildPlan} {help : Collaborators}
  {force : Bool} {fs : FileSystem} {units : List BuildUnit}

/-- A compile phase on units that nothing keeps from being compiled succeeds. -/
theorem phase_ready (hlaid : plan.LaidOut names) (hsep : plan.Separate)
    (hconfined : help.toolchain.Confined) (hable : help.toolchain.Able) (force : Bool)
    (hunits : units ⊆ plan.order) (hnodup : units.Nodup)
    (hflat : fs.FlatAt (Path.rooted names) base)
    (hready : ∀ u ∈ units, u.Ready help.validator fs) :
    ∃ records, (plan.phase .compile (BuildUnit.compile help force) units fs).outcome =
      .ok records := by
  induction units generalizing fs with
  | nil => exact ⟨[], rfl⟩
  | cons u units ih =>
    have hu : u ∈ plan.order := hunits List.mem_cons_self
    have hrest : units ⊆ plan.order := fun v hv => hunits (List.mem_cons_of_mem _ hv)
    obtain ⟨hnot, hnodup⟩ := List.nodup_cons.mp hnodup
    obtain ⟨record, hrecord⟩ := (hready u List.mem_cons_self).compile hable force
    have hchanged := (hlaid.units u hu).compile_changedWithin hlaid.ordinary hflat hconfined force
    obtain ⟨later, hlater⟩ := ih hrest hnodup (hflat.of_sameShape hchanged.shape) fun v hv => by
      have hsame := sameFiles_of_changedWithin hlaid hsep hflat hu hchanged (hrest hv)
        fun heq => hnot (heq ▸ hv)
      exact (hready v (List.mem_cons_of_mem _ hv)).of_sameShape hchanged.shape hsame.sourceText
    rw [phase_cons_ok hrecord, BuildResult.after, hlater]
    exact ⟨_, rfl⟩

/-- A plan whose units nothing keeps from being compiled is compiled. -/
theorem compile_ready {extract : Extractor} {found : FileSystem} {path : Path}
    (hplan : (resolveWith extract found path).2 = .ok plan) (hfound : found.WellKept)
    (hsep : plan.Separate) (hflat : ∃ base, fs.FlatAt plan.directory base)
    (hconfined : help.toolchain.Confined) (hable : help.toolchain.Able) (force : Bool)
    (hready : ∀ u ∈ plan.order, u.Ready help.validator fs) :
    ∃ records, (plan.compile help force fs).outcome = .ok records := by
  obtain ⟨names, hlaid⟩ := laidOut_of_resolveWith hplan hfound hsep.named
  obtain ⟨base, hflat⟩ := hflat
  rw [hlaid.directory] at hflat
  have hnodup : plan.order.Nodup := (resolved_of_resolveWith hplan).nodup.of_map
  exact phase_ready hlaid hsep hconfined hable force (List.Subset.refl _) hnodup hflat hready

end

/-! ### A directory of three units -/

namespace Sample

/-- There is a third unit, and nothing is compiled. -/
def sources : FileSystem :=
  { files with
    entries := files.entries ++
      [([FileName.ofText "w", FileName.ofText "c.sql"], .file "SELECT 2".toUTF8 1 false)] }

def third : BuildUnit :=
  ⟨"c", ⟨"/w/c.sql"⟩, ⟨"/w/c"⟩⟩

def triple : BuildPlan :=
  ⟨⟨⟨"/w"⟩, [first, second, third], UnitGraph.link Reference.names
    (UnitGraph.link Reference.names (Graph.ofEdges ["a", "b", "c"] []) first "SELECT 1") second
    "SELECT * FROM 'a.csv'"⟩, [first, second, third]⟩

theorem find_sources : sources.find first.source = .ok
      ([FileName.ofText "w", FileName.ofText "a.sql"], .file "SELECT 1".toUTF8 1 false) ∧
    sources.find second.source = .ok ([FileName.ofText "w", FileName.ofText "b.sql"],
      .file "SELECT * FROM 'a.csv'".toUTF8 1 false) ∧
    sources.find third.source = .ok
      ([FileName.ofText "w", FileName.ofText "c.sql"], .file "SELECT 2".toUTF8 1 false) :=
  ⟨find_of_walk ["w", "a.sql"] (by decide) (by decide) (by cbv),
    find_of_walk ["w", "b.sql"] (by decide) (by decide) (by cbv),
    find_of_walk ["w", "c.sql"] (by decide) (by decide) (by cbv)⟩

theorem modified_sources {u : BuildUnit} (hu : u ∈ triple.order) :
    sources.modified u.source = .ok 1 := by
  simp only [triple, List.mem_cons, List.not_mem_nil, or_false] at hu
  rcases hu with rfl | rfl | rfl
  · exact modified_eq_ok.mpr ⟨_, find_sources.1, rfl⟩
  · exact modified_eq_ok.mpr ⟨_, find_sources.2.1, rfl⟩
  · exact modified_eq_ok.mpr ⟨_, find_sources.2.2, rfl⟩

theorem resolve_sources : (resolveWith Reference.names sources ⟨"/w"⟩).2 = .ok triple := by
  have hcanonical : sources.canonicalize ⟨"/w"⟩ = .ok [FileName.ofText "w"] := by cbv
  have hpath : Location.path [FileName.ofText "w"] = ⟨"/w"⟩ := by cbv
  have hscan : UnitGraph.scan ⟨"/w"⟩ [] (UnitGraph.fileNames sources [FileName.ofText "w"]) =
      ⟨[first, second, third], [], none⟩ := by cbv
  have hfirst : first.sourceText sources = .ok "SELECT 1" := readText_of_find find_sources.1
  have hsecond : second.sourceText sources = .ok "SELECT * FROM 'a.csv'" :=
    readText_of_find find_sources.2.1
  have hthird : third.sourceText sources = .ok "SELECT 2" := readText_of_find find_sources.2.2
  have hnone : Reference.names "SELECT 2" = [] := by cbv
  have hlink : UnitGraph.linkAll Reference.names sources (Graph.ofEdges ["a", "b", "c"] [])
      [first, second, third] = .ok triple.discovered.graph := by
    simp only [UnitGraph.linkAll, hfirst, hsecond, hthird]
    rw [UnitGraph.link, hnone]
    rfl
  have horder : triple.discovered.graph.resolveOrder = .ok ["a", "b", "c"] := by cbv
  have hplan := resolveWith_eq_ok hcanonical (hpath.symm ▸ hscan) (by simp) hlink horder
  rwa [hpath] at hplan

theorem wellKept_sources : sources.WellKept :=
  .of_listing "w" ["a.sql", "b.sql", "c.sql"] rfl (by cbv) rfl (by decide)

theorem flatAt_sources : sources.FlatAt (Path.rooted ["w"]) [FileName.ofText "w"] := by
  refine ⟨⟨0, by cbv⟩, fun name target hlink => ?_⟩
  have hmem := mem_entries_of_get? (by simp) hlink
  simp [sources, files] at hmem

theorem separate_triple : triple.Separate where
  named u hu := by
    simp only [triple, List.mem_cons, List.not_mem_nil, or_false] at hu
    rcases hu with rfl | rfl | rfl <;> decide
  apart u hu v hv hne := by
    simp only [triple, List.mem_cons, List.not_mem_nil, or_false] at hu hv
    rcases hu with rfl | rfl | rfl <;> rcases hv with rfl | rfl | rfl <;>
      first | exact absurd rfl hne | decide

theorem laidOut_triple : triple.LaidOut ["w"] where
  ordinary := by decide
  directory := by decide
  units u hu := by
    have hunit : ∃ name ∈ ["a", "b", "c"],
        u = .ofSource name (Path.rooted (["w"] ++ [name ++ "." ++ BuildUnit.sourceExtension])) := by
      simp only [triple, List.mem_cons, List.not_mem_nil, or_false] at hu
      rcases hu with rfl | rfl | rfl <;> decide
    have hordinary : ∀ name ∈ ["a", "b", "c"],
        IsOrdinary name ∧ IsOrdinary (name ++ "." ++ BuildUnit.sourceExtension) := by decide
    obtain ⟨name, hname, rfl⟩ := hunit
    exact BuildUnit.liesIn_ofSource (by decide) (hordinary name hname).1 (hordinary name hname).2
      (by cbv)

theorem flatAt_triple : ∃ base, sources.FlatAt triple.directory base := by
  rw [laidOut_triple.directory]
  exact ⟨_, flatAt_sources⟩

/-- What compiling makes. -/
def made : List String :=
  ["a.cpp", "a", "b.cpp", "b", "c.cpp", "c"]

theorem mem_made {u : BuildUnit} (hu : u ∈ triple.order) {path : Path}
    (hpath : path ∈ [u.program, u.artifact]) : ∃ name ∈ made, path = Path.rooted ["w", name] := by
  simp only [triple, List.mem_cons, List.not_mem_nil, or_false] at hu hpath
  rcases hu with rfl | rfl | rfl <;> rcases hpath with rfl | rfl <;> decide

/-- Neither a program nor an artifact is there. -/
theorem resolve_made {name : String} (hname : name ∈ made) (follow : Bool) :
    sources.resolve follow (Path.rooted ["w", name]) =
      .ok ⟨[FileName.ofText "w", FileName.ofText name], none⟩ := by
  have hplain : ∀ name ∈ made, IsOrdinary name ∧
      (Path.rooted ["w", name]).text.toList.contains '\x00' = false ∧
      (Path.rooted ["w", name]).text.utf8ByteSize + 1 ≤ pathLimit ∧
      name.utf8ByteSize ≤ nameLimit := by decide
  obtain ⟨hordinary, hvalid⟩ := hplain name hname
  have hnone : sources.get? [FileName.ofText "w", FileName.ofText name] = none := by
    simp only [made, List.mem_cons, List.not_mem_nil, or_false] at hname
    rcases hname with rfl | rfl | rfl | rfl | rfl | rfl <;> cbv
  obtain ⟨time, hdirectory⟩ := flatAt_sources.found
  exact resolve_rooted_missing laidOut_triple.ordinary hdirectory hordinary hnone hvalid follow

theorem modified_made {name : String} (hname : name ∈ made) :
    sources.modified (Path.rooted ["w", name]) = .error .notFound :=
  modified_missing (resolve_made hname true)

/-- Every text is a query, and the artifact of a program is its text. -/
def compiling : Collaborators :=
  { idle with toolchain := .prompt String.toUTF8 }

theorem ready_sources {u : BuildUnit} (hu : u ∈ triple.order) :
    u.Ready compiling.validator sources := by
  have hopen : ∀ path ∈ [u.program, u.artifact], sources.Open path := by
    intro path hpath
    obtain ⟨name, hname, rfl⟩ := mem_made hu hpath
    have hfile : ∀ name ∈ made, namesDirectory (Path.rooted ["w", name]) = false := by decide
    exact open_of_missing (hfile name hname) (resolve_made hname true)
  have hread : ∃ sql, u.sourceText sources = .ok sql := by
    simp only [triple, List.mem_cons, List.not_mem_nil, or_false] at hu
    rcases hu with rfl | rfl | rfl
    · exact ⟨_, readText_of_find find_sources.1⟩
    · exact ⟨_, readText_of_find find_sources.2.1⟩
    · exact ⟨_, readText_of_find find_sources.2.2⟩
  obtain ⟨sql, hread⟩ := hread
  exact ⟨⟨sql, hread, rfl⟩, hopen _ (by simp), hopen _ (by simp)⟩

/-- The artifact of the third unit is there, and it is newer than the source. -/
def partly : FileSystem :=
  sources.create [FileName.ofText "w", FileName.ofText "c"] (.file "artifact".toUTF8 2 false)

theorem write_partly : sources.write third.artifact "artifact".toUTF8 = .ok partly := by
  have hpath : third.artifact = Path.rooted ["w", "c"] := by decide
  rw [hpath]
  exact write_missing (resolve_made (by decide) true) (by decide) _

theorem flatAt_partly : ∃ base, partly.FlatAt triple.directory base := by
  obtain ⟨base, hflat⟩ := flatAt_triple
  exact ⟨base, hflat.of_sameShape (write_spec write_partly).1.shape⟩

/-- The other files look as they did. -/
theorem sameView_partly {u : BuildUnit} (hu : u ∈ triple.order) {path : Path}
    (hpath : path ∈ [u.source, u.program, u.artifact]) (hne : path ≠ third.artifact) :
    SameView sources partly path := by
  have hthird := (laidOut_triple.units third (by decide)).artifact_isEntry
  have hlies := laidOut_triple.units u hu
  have hentry : path.IsEntry ["w"] := by
    simp only [List.mem_cons, List.not_mem_nil, or_false] at hpath
    rcases hpath with rfl | rfl | rfl
    · exact hlies.source_isEntry
    · exact hlies.program_isEntry
    · exact hlies.artifact_isEntry
  have hordinary := laidOut_triple.ordinary
  exact (flatAt_sources.write hordinary hthird write_partly).1.changedWithin.sameView
    flatAt_sources hordinary (by simpa using hthird) hentry (by simpa using hne)

theorem sameView_source {u : BuildUnit} (hu : u ∈ triple.order) :
    SameView sources partly u.source := by
  have hne : ∀ u ∈ triple.order, u.source ≠ third.artifact := by decide
  exact sameView_partly hu (by simp) (hne u hu)

theorem modified_partly {u : BuildUnit} (hu : u ∈ triple.order) :
    partly.modified u.source = .ok 1 :=
  (sameView_source hu).modified.trans (modified_sources hu)

theorem ready_partly {u : BuildUnit} (hu : u ∈ triple.order) :
    u.Ready compiling.validator partly :=
  (ready_sources hu).of_sameShape (write_spec write_partly).1.shape (sameView_source hu).readText

theorem missing_partly : ∀ u ∈ [first, second], Staleness.ofUnit partly u = .ok .missing := by
  intro u hu
  have hplain : ∀ u ∈ [first, second], u ∈ triple.order ∧ u.artifact ≠ third.artifact := by decide
  obtain ⟨horder, hne⟩ := hplain u hu
  have hmade : u.artifact ∈ [u.program, u.artifact] := by simp
  obtain ⟨name, hname, hpath⟩ := mem_made horder hmade
  have hsame := (sameView_partly horder (by simp) hne).modified
  rw [hpath, modified_made hname, ← hpath] at hsame
  exact BuildUnit.missing_of_modified hsame

theorem upToDate_partly : Staleness.ofUnit partly third = .ok .upToDate := by
  obtain ⟨-, location, executable, hfind⟩ := write_spec write_partly
  have hnewer : 1 < sources.now := by decide
  exact BuildUnit.upToDate_of_newer (modified_partly (by decide))
    (modified_eq_ok.mpr ⟨_, hfind, rfl⟩) hnewer

end Sample

end BuildPlan

end QueryBuild

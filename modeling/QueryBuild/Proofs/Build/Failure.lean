import QueryBuild.Proofs.Build.Phase
import QueryBuild.Proofs.Files.Change
import QueryBuild.Proofs.Graph.Closure
/-!
# What a failure accounts for

A failure accounts for every unit of the plan: those in front of the failed one are completed, and
those behind it were not reached. Since the order respects the dependencies, all that needs the
failed unit is among the latter.
-/

namespace QueryBuild.BuildPlan

open Relation

variable {extract : Extractor} {fs : FileSystem} {plan : BuildPlan}

theorem names_split {done rest : List BuildUnit} {u : BuildUnit}
    (hsplit : plan.order = done ++ u :: rest) :
    plan.names = done.map BuildUnit.name ++ u.name :: rest.map BuildUnit.name := by
  rw [names, hsplit, List.map_append, List.map_cons]

theorem Resolved.names_perm (h : plan.Resolved extract fs) :
    plan.names.Perm (plan.discovered.units.map BuildUnit.name) := by
  have hunits : plan.discovered.units.Nodup := h.linked.distinct.of_map
  exact ((List.perm_ext_iff_of_nodup h.nodup.of_map hunits).mpr h.mem_order).map BuildUnit.name

theorem Resolved.dependents_behind (h : plan.Resolved extract fs) {done rest : List BuildUnit}
    {u : BuildUnit} (hsplit : plan.order = done ++ u :: rest) {name : String}
    (hname : name ∈ plan.discovered.graph.allDependents u.name) :
    name ∉ done.map BuildUnit.name ∧ name ≠ u.name := by
  have hknown : ∀ dependent dependency, plan.discovered.graph.DependsOn dependent dependency →
      dependent ∈ plan.names := by
    intro dependent dependency hd
    have hunit := (h.linked.contains_iff _).mp (h.linked.wellFormed.known _ _ hd).1
    exact h.names_perm.mem_iff.mpr hunit
  have hlt := h.respects.idxOf_lt_of_transGen hknown
    ((Graph.mem_allDependents h.linked.wellFormed _ _).mp hname)
  have hnodup := h.nodup
  rw [names_split hsplit] at hlt hnodup
  have hfailed : u.name ∉ done.map BuildUnit.name := fun hm =>
    (List.nodup_append.mp hnodup).2.2 u.name hm u.name (by simp) rfl
  rw [List.idxOf_append_of_notMem hfailed, List.idxOf_cons_self] at hlt
  constructor
  · intro hm
    rw [List.idxOf_append_of_mem hm] at hlt
    have := List.idxOf_lt_length_of_mem hm
    omega
  · intro heq
    subst heq
    rw [List.idxOf_append_of_notMem hfailed, List.idxOf_cons_self] at hlt
    omega

/-- The units behind a failed one, split into those that need it and the others. -/
theorem dependents_names (plan : BuildPlan) (u : BuildUnit) (rest : List BuildUnit) :
    (plan.dependents u.name rest).1.map BuildUnit.name =
        (rest.map BuildUnit.name).filter (plan.discovered.graph.allDependents u.name).contains ∧
      (plan.dependents u.name rest).2.map BuildUnit.name =
        (rest.map BuildUnit.name).filter
          fun name => !(plan.discovered.graph.allDependents u.name).contains name := by
  rw [dependents, List.partition_eq_filter_filter, List.filter_map, List.filter_map]
  exact ⟨rfl, rfl⟩

/-- The names behind a unit that need it are all the names that need it. -/
theorem Resolved.filter_dependents (h : plan.Resolved extract fs) {done rest : List BuildUnit}
    {u : BuildUnit} (hsplit : plan.order = done ++ u :: rest) :
    plan.names.filter (plan.discovered.graph.allDependents u.name).contains =
      (rest.map BuildUnit.name).filter
        (plan.discovered.graph.allDependents u.name).contains := by
  have hdone : (done.map BuildUnit.name).filter
      (plan.discovered.graph.allDependents u.name).contains = [] := by
    rw [List.filter_eq_nil_iff]
    intro name hname hneeds
    exact (h.dependents_behind hsplit (List.contains_iff_mem.mp hneeds)).1 hname
  have hself : ¬ (plan.discovered.graph.allDependents u.name).contains u.name = true :=
    fun hneeds => (h.dependents_behind hsplit (List.contains_iff_mem.mp hneeds)).2 rfl
  rw [names_split hsplit, List.filter_append, hdone, List.nil_append,
    List.filter_cons_of_neg hself]

/-- The names that need a unit are those of its transitive dependents. -/
theorem Resolved.mem_filter_dependents (h : plan.Resolved extract fs) (name failed : String) :
    name ∈ plan.names.filter (plan.discovered.graph.allDependents failed).contains ↔
      TransGen plan.discovered.graph.DependsOn name failed := by
  rw [List.mem_filter, List.contains_iff_mem, Graph.mem_allDependents h.linked.wellFormed]
  apply and_iff_right_of_imp
  intro hpath
  obtain ⟨next, hd, -⟩ := TransGen.head'_iff.mp hpath
  have hunit := (h.linked.contains_iff _).mp (h.linked.wellFormed.known _ _ hd).1
  exact h.names_perm.mem_iff.mpr hunit

/-- A build whose run phase fails is a run that fails, with the records of the compile phase in
front. -/
theorem run_error_of_build {help : Collaborators} {force : Bool} {files : FileSystem}
    {records : List UnitRecord} {f : BuildFailure}
    (hcompile : (plan.compile help force files).outcome = .ok records)
    (hbuild : (plan.build help force files).outcome = .error (f.after records)) :
    (plan.run help (plan.compile help force files).files).outcome = .error f := by
  rw [build, hcompile] at hbuild
  cases hrun : (plan.run help (plan.compile help force files).files).outcome with
  | ok later =>
    simp [BuildResult.after, hrun] at hbuild
  | error later =>
    simp only [BuildResult.after, hrun, Except.error.injEq, BuildFailure.after,
      BuildFailure.mk.injEq, List.append_cancel_left_eq] at hbuild
    obtain ⟨hphase, herror, hcompleted, hblocked, hunreached⟩ := hbuild
    cases later
    cases f
    simp_all

/-- A failure at a unit: the units in front of it are completed; all that needs it is blocked; and
the completed units, the failed one and those not reached are the units of the plan, the blocked
ones first among the last. -/
theorem failure_accounts_for_units {path : Path} {help : Collaborators} (force : Bool)
    {files : FileSystem} {f : BuildFailure}
    (hplan : (resolveWith extract fs path).2 = .ok plan)
    (hfail : (plan.compile help force files).outcome = .error f ∨
      (plan.run help files).outcome = .error f ∨
      ∃ records, (plan.compile help force files).outcome = .ok records ∧
        (plan.build help force files).outcome = .error (f.after records)) :
    ∃ position u, plan.order[position]? = some u ∧ f.unit = some u.name ∧
      f.completed.map UnitRecord.name = plan.names.take position ∧
      f.blocked = plan.names.filter (plan.discovered.graph.allDependents u.name).contains ∧
      (∀ name, name ∈ f.blocked ↔ TransGen plan.discovered.graph.DependsOn name u.name) ∧
      (∀ name ∈ f.blocked, name ∉ f.completed.map UnitRecord.name) ∧
      f.unreached =
        f.blocked ++ (plan.names.drop (position + 1)).filter (!f.blocked.contains ·) ∧
      (f.completed.map UnitRecord.name ++ u.name :: f.unreached).Nodup ∧
      (f.completed.map UnitRecord.name ++ u.name :: f.unreached).Perm
        (plan.discovered.units.map BuildUnit.name) := by
  have h := resolved_of_resolveWith hplan
  have hstep : ∃ kind step start, NamesUnit step ∧
      (plan.phase kind step plan.order start).outcome = .error f := by
    rcases hfail with hfail | hfail | ⟨records, hcompile, hbuild⟩
    · exact ⟨_, _, _, BuildUnit.namesUnit_compile help force, hfail⟩
    · exact ⟨_, _, _, BuildUnit.namesUnit_run help, hfail⟩
    · exact ⟨_, _, _, BuildUnit.namesUnit_run help, run_error_of_build hcompile hbuild⟩
  obtain ⟨kind, step, start, hnames, hf⟩ := hstep
  obtain ⟨done, u, rest, hsplit, -, hunit, hcompleted, hblocked, hunreached⟩ :=
    phase_error hnames hf
  have hnamesSplit := names_split hsplit
  have htake : plan.names.take done.length = done.map BuildUnit.name := by
    rw [hnamesSplit]
    exact List.take_left' (List.length_map _)
  have hdrop : plan.names.drop (done.length + 1) = rest.map BuildUnit.name := by
    rw [hnamesSplit, ← List.drop_drop, List.drop_left' (List.length_map _)]
    rfl
  obtain ⟨hneeding, hothers⟩ := plan.dependents_names u rest
  have hall := (hblocked.trans hneeding).trans (h.filter_dependents hsplit).symm
  have hmem : ∀ name, name ∈ f.blocked ↔ TransGen plan.discovered.graph.DependsOn name u.name := by
    rw [hall]
    exact fun name => h.mem_filter_dependents name u.name
  have hrest : f.unreached =
      f.blocked ++ (rest.map BuildUnit.name).filter (!f.blocked.contains ·) := by
    rw [hunreached, hothers]
    congr 1
    apply List.filter_congr
    intro name _
    have hsame : (plan.discovered.graph.allDependents u.name).contains name =
        f.blocked.contains name := by
      rw [Bool.eq_iff_iff, List.contains_iff_mem, List.contains_iff_mem, hmem,
        Graph.mem_allDependents h.linked.wellFormed]
    rw [hsame]
  have hperm : (f.completed.map UnitRecord.name ++ u.name :: f.unreached).Perm
      (plan.discovered.units.map BuildUnit.name) := by
    refine List.Perm.trans ?_ h.names_perm
    rw [hcompleted, hunreached, hblocked, hneeding, hothers, hnamesSplit]
    exact ((List.filter_append_perm _ _).cons u.name).append_left _
  refine ⟨done.length, u, by simp [hsplit], hunit, hcompleted.trans htake.symm, hall, hmem, ?_, ?_,
    hperm.nodup_iff.mpr h.linked.distinct, hperm⟩
  · intro name hname
    rw [hcompleted]
    exact (h.dependents_behind hsplit
      ((Graph.mem_allDependents h.linked.wellFormed _ _).mpr ((hmem name).mp hname))).1
  · rw [hdrop]
    exact hrest

/-! ### Directories of one and of two units -/

namespace Sample

/-- The second unit reads the output of the first one; nothing is compiled. -/
def files : FileSystem where
  entries := [
    ([FileName.ofText "w"], .directory 0),
    ([FileName.ofText "w", FileName.ofText "a.sql"], .file "SELECT 1".toUTF8 1 false),
    ([FileName.ofText "w", FileName.ofText "b.sql"],
      .file "SELECT * FROM 'a.csv'".toUTF8 1 false)]
  workingDirectory := []
  now := 2

def first : BuildUnit :=
  ⟨"a", ⟨"/w/a.sql"⟩, ⟨"/w/a"⟩⟩

def second : BuildUnit :=
  ⟨"b", ⟨"/w/b.sql"⟩, ⟨"/w/b"⟩⟩

def graph : Graph :=
  UnitGraph.link Reference.names
    (UnitGraph.link Reference.names (Graph.ofEdges ["a", "b"] []) first "SELECT 1") second
    "SELECT * FROM 'a.csv'"

def pair : BuildPlan :=
  ⟨⟨⟨"/w"⟩, [first, second], graph⟩, [first, second]⟩

theorem sourceText_first : first.sourceText files = .ok "SELECT 1" := by
  have hfound : files.find ⟨"/w/a.sql"⟩ = .ok ([FileName.ofText "w", FileName.ofText "a.sql"],
      .file "SELECT 1".toUTF8 1 false) :=
    FileSystem.find_of_walk ["w", "a.sql"] (by decide) (by decide) (by cbv)
  exact FileSystem.readText_of_find hfound

theorem sourceText_second : second.sourceText files = .ok "SELECT * FROM 'a.csv'" := by
  have hfound : files.find ⟨"/w/b.sql"⟩ = .ok ([FileName.ofText "w", FileName.ofText "b.sql"],
      .file "SELECT * FROM 'a.csv'".toUTF8 1 false) :=
    FileSystem.find_of_walk ["w", "b.sql"] (by decide) (by decide) (by cbv)
  exact FileSystem.readText_of_find hfound

theorem resolveWith_files {extract : Extractor} {linked : Graph} {order : List String}
    (hlink : UnitGraph.linkAll extract files (Graph.ofEdges ["a", "b"] []) [first, second] =
      .ok linked)
    (horder : linked.resolveOrder = .ok order) :
    let found : UnitGraph := ⟨⟨"/w"⟩, [first, second], linked⟩
    (resolveWith extract files ⟨"/w"⟩).2 = .ok ⟨found, order.filterMap found.unit?⟩ := by
  have hcanonical : files.canonicalize ⟨"/w"⟩ = .ok [FileName.ofText "w"] := by cbv
  have hpath : Location.path [FileName.ofText "w"] = ⟨"/w"⟩ := by cbv
  have hscan : UnitGraph.scan ⟨"/w"⟩ [] (UnitGraph.fileNames files [FileName.ofText "w"]) =
      ⟨[first, second], [], none⟩ := by cbv
  have hplan := resolveWith_eq_ok hcanonical (hpath.symm ▸ hscan) (by simp) hlink horder
  rwa [hpath] at hplan

theorem resolve_files : (resolveWith Reference.names files ⟨"/w"⟩).2 = .ok pair := by
  have hlink : UnitGraph.linkAll Reference.names files (Graph.ofEdges ["a", "b"] [])
      [first, second] = .ok graph := by
    simp only [UnitGraph.linkAll, sourceText_first, sourceText_second]
    rfl
  have horder : graph.resolveOrder = .ok ["a", "b"] := by cbv
  exact resolveWith_files hlink horder

/-- The first unit is all there is. -/
def alone : FileSystem where
  entries := [
    ([FileName.ofText "w"], .directory 0),
    ([FileName.ofText "w", FileName.ofText "a.sql"], .file "SELECT 1".toUTF8 1 false)]
  workingDirectory := []
  now := 2

def lone : BuildPlan :=
  ⟨⟨⟨"/w"⟩, [first], UnitGraph.link Reference.names (Graph.ofEdges ["a"] []) first "SELECT 1"⟩,
    [first]⟩

theorem find_alone : alone.find first.source =
    .ok ([FileName.ofText "w", FileName.ofText "a.sql"], .file "SELECT 1".toUTF8 1 false) :=
  FileSystem.find_of_walk ["w", "a.sql"] (by decide) (by decide) (by cbv)

theorem sourceText_alone : first.sourceText alone = .ok "SELECT 1" :=
  FileSystem.readText_of_find find_alone

/-- A directory whose only source is that of the unit has the plan of the unit. -/
theorem resolve_lone {fs : FileSystem}
    (hcanonical : fs.canonicalize ⟨"/w"⟩ = .ok [FileName.ofText "w"])
    (hscan : UnitGraph.scan ⟨"/w"⟩ [] (UnitGraph.fileNames fs [FileName.ofText "w"]) =
      ⟨[first], [], none⟩)
    (htext : first.sourceText fs = .ok "SELECT 1") :
    (resolveWith Reference.names fs ⟨"/w"⟩).2 = .ok lone := by
  have hpath : Location.path [FileName.ofText "w"] = ⟨"/w"⟩ := by cbv
  have hlink : UnitGraph.linkAll Reference.names fs (Graph.ofEdges ["a"] []) [first] =
      .ok lone.discovered.graph := by
    simp only [UnitGraph.linkAll, htext]
    rfl
  have horder : lone.discovered.graph.resolveOrder = .ok ["a"] := by cbv
  have hplan := resolveWith_eq_ok hcanonical (hpath.symm ▸ hscan) (by simp) hlink horder
  rw [hpath] at hplan
  exact hplan

theorem resolve_alone : (resolveWith Reference.names alone ⟨"/w"⟩).2 = .ok lone :=
  resolve_lone (by cbv) (by cbv) sourceText_alone

/-- There are no artifacts to run, and nobody who would run them. -/
def idle : Collaborators :=
  ⟨fun _ => .ok (), fun _ _ fs => .refused fs .notFound, fun _ fs => .refused fs .notFound⟩

theorem run_first : (first.run idle files).result = .error (.notExecuted "a"
    "artifact /w/a not found; compile first" "") := by
  have hnone : files.resolve true ⟨"/w/a"⟩ =
      .ok ⟨[FileName.ofText "w", FileName.ofText "a"], none⟩ :=
    FileSystem.resolve_of_walk ["w", "a"] (by decide) (by decide) (by cbv)
  simp only [BuildUnit.run, first, FileSystem.isFile, FileSystem.find, hnone]
  rfl

end Sample

/-- Without artifacts the first unit fails, and the second one is not reached. -/
theorem failure_of_missing_artifact :
    let f := BuildFailure.atUnit Sample.pair .run Sample.first
      (.notExecuted "a" "artifact /w/a not found; compile first" "") [Sample.second]
    (Sample.pair.run Sample.idle Sample.files).outcome = .error f ∧
      (f.completed.map UnitRecord.name ++ "a" :: f.unreached).Perm ["a", "b"] := by
  have hfail : (Sample.pair.run Sample.idle Sample.files).outcome =
      .error (.atUnit Sample.pair .run Sample.first _ [Sample.second]) :=
    congrArg BuildResult.outcome (phase_cons_error Sample.run_first [Sample.second])
  obtain ⟨position, u, hu, hunit, -, -, -, -, -, -, hperm⟩ :=
    failure_accounts_for_units false Sample.resolve_files (.inr (.inl hfail))
  have hname : "a" = u.name := Option.some.inj hunit
  rw [← hname] at hperm
  exact ⟨hfail, hperm⟩

end QueryBuild.BuildPlan

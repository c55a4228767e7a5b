import QueryBuild.Build.Plan
import QueryBuild.Proofs.Graph.BuildOrder
import QueryBuild.Proofs.Outcome
/-!
# Discovered units and their links

The units that are found in a directory have different names, and one of them depends on another
exactly if the extractor gives the name of that other one for its text. A plan holds all of them,
each one behind what it depends on.
-/

namespace QueryBuild

namespace UnitGraph

/-! ### The names in a directory -/

/-- A unit belongs to the source file with a name. -/
def FoundAs (directory : Path) (name : FileName) (u : BuildUnit) : Prop :=
  name.isSource = true ∧ ∃ stem, name.split.1.text? = some stem ∧
    u = BuildUnit.ofSource stem (directory.join name.shown)

theorem mem_scan {directory : Path} {units : List BuildUnit} {names : List FileName}
    {u : BuildUnit} (h : u ∈ (scan directory units names).units) :
    u ∈ units ∨ ∃ name ∈ names, FoundAs directory name u := by
  fun_induction scan directory units names with
  | case1 units => exact Or.inl h
  | case2 units name names hsource path hstem rest ih =>
    apply (ih h).imp_right
    intro hcase
    rcases hcase with ⟨other, hother, hfound⟩
    exact ⟨other, List.mem_cons_of_mem _ hother, hfound⟩
  | case3 units name names hsource path stem hstem known hknown => exact Or.inl h
  | case4 units name names hsource path stem hstem hnew ih =>
    rcases ih h with hu | ⟨other, hother, hfound⟩
    · rcases List.mem_append.mp hu with hu | hu
      · exact Or.inl hu
      · exact Or.inr ⟨name, by simp, hsource, stem, hstem, List.mem_singleton.mp hu⟩
    · exact Or.inr ⟨other, List.mem_cons_of_mem _ hother, hfound⟩
  | case5 units name names hsource ih =>
    apply (ih h).imp_right
    intro hcase
    rcases hcase with ⟨other, hother, hfound⟩
    exact ⟨other, List.mem_cons_of_mem _ hother, hfound⟩

theorem nodup_scan (directory : Path) {units : List BuildUnit} (names : List FileName)
    (h : (units.map BuildUnit.name).Nodup) :
    ((scan directory units names).units.map BuildUnit.name).Nodup := by
  fun_induction scan directory units names with
  | case1 units => exact h
  | case2 units name names hsource path hstem rest ih => exact ih h
  | case3 units name names hsource path stem hstem known hknown => exact h
  | case4 units name names hsource path stem hstem hnew ih =>
    apply ih
    rw [List.map_append, List.nodup_append]
    refine ⟨h, by simp, ?_⟩
    rintro other hother _ hstem' rfl
    obtain ⟨u, hu, rfl⟩ := List.mem_map.mp hother
    have hname : u.name = stem := by simpa [BuildUnit.ofSource] using hstem'
    exact absurd (beq_iff_eq.mpr hname) (List.find?_eq_none.mp hnew u hu)
  | case5 units name names hsource ih => exact ih h

/-! ### Links -/

theorem link_eq_addEdges (extract : Extractor) (g : Graph) (u : BuildUnit) (sql : String) :
    link extract g u sql = g.addEdges ((extract sql).map (Prod.mk u.name)) := by
  rw [link, Graph.addEdges, List.foldl_map]

/-- The names that an extractor gives for a text become dependencies if they are known. -/
theorem dependsOn_link (extract : Extractor) (g : Graph) (u : BuildUnit) (sql : String)
    (dependent dependency : String) :
    (link extract g u sql).DependsOn dependent dependency ↔ g.DependsOn dependent dependency ∨
      (dependent = u.name ∧ dependency ∈ extract sql ∧
        g.contains dependent = true ∧ g.contains dependency = true) := by
  have hmem : (dependent, dependency) ∈ (extract sql).map (Prod.mk u.name) ↔
      dependent = u.name ∧ dependency ∈ extract sql := by
    simp [eq_comm, and_comm]
  rw [link_eq_addEdges, Graph.dependsOn_addEdges, hmem, and_assoc]

theorem contains_link (extract : Extractor) (g : Graph) (u : BuildUnit) (sql name : String) :
    (link extract g u sql).contains name = g.contains name := by
  rw [link_eq_addEdges, Graph.contains_addEdges]

theorem wellFormed_link (extract : Extractor) {g : Graph} (h : g.WellFormed) (u : BuildUnit)
    (sql : String) : (link extract g u sql).WellFormed := by
  rw [link_eq_addEdges]
  exact h.addEdges _

theorem linkAll_spec {extract : Extractor} {fs : FileSystem} {units : List BuildUnit}
    {g linked : Graph} (h : g.WellFormed) (hok : linkAll extract fs g units = .ok linked) :
    linked.WellFormed ∧ (∀ name, linked.contains name = g.contains name) ∧
      (∀ u ∈ units, ∃ sql, u.sourceText fs = .ok sql) ∧
      ∀ dependent dependency, linked.DependsOn dependent dependency ↔
        g.DependsOn dependent dependency ∨
          ∃ u ∈ units, ∃ sql, u.sourceText fs = .ok sql ∧ dependent = u.name ∧
            dependency ∈ extract sql ∧ g.contains dependent = true ∧
              g.contains dependency = true := by
  fun_induction linkAll extract fs g units with
  | case1 g =>
    cases hok
    exact ⟨h, by simp, by simp, by simp⟩
  | case2 g u units e hread => cases hok
  | case3 g u units sql hread ih =>
    obtain ⟨hwell, hcontains, hreadable, hdepends⟩ := ih (wellFormed_link extract h u sql) hok
    simp only [contains_link] at hcontains hdepends
    refine ⟨hwell, hcontains, ?_, ?_⟩
    · intro v hv
      rcases List.mem_cons.mp hv with rfl | hv
      · exact ⟨sql, hread⟩
      · exact hreadable v hv
    · intro dependent dependency
      rw [hdepends, dependsOn_link]
      constructor
      · intro hcase
        rcases hcase with (hd | ⟨hd, hm, hk⟩) | ⟨v, hv, text, ht, hd⟩
        · exact Or.inl hd
        · exact Or.inr ⟨u, by simp, sql, hread, hd, hm, hk⟩
        · exact Or.inr ⟨v, by simp [hv], text, ht, hd⟩
      · intro hcase
        rcases hcase with hd | ⟨v, hv, text, ht, hd⟩
        · exact Or.inl (Or.inl hd)
        · rcases List.mem_cons.mp hv with rfl | hv
          · cases hread.symm.trans ht
            exact Or.inl (Or.inr hd)
          · exact Or.inr ⟨v, hv, text, ht, hd⟩

/-- What holds of discovered units and of the edges between them. -/
structure Linked (extract : Extractor) (fs : FileSystem) (g : UnitGraph) : Prop where
  distinct : (g.units.map BuildUnit.name).Nodup
  wellFormed : g.graph.WellFormed
  contains_iff : ∀ name, g.graph.contains name = true ↔ name ∈ g.units.map BuildUnit.name
  readable : ∀ u ∈ g.units, ∃ sql, u.sourceText fs = .ok sql
  dependsOn_iff : ∀ u ∈ g.units, ∀ sql, u.sourceText fs = .ok sql → ∀ name,
    g.graph.DependsOn u.name name ↔ name ∈ extract sql ∧ name ∈ g.units.map BuildUnit.name
  found : ∃ path location, fs.canonicalize path = .ok location ∧
    g.directory = Location.path location ∧
    ∀ u ∈ g.units, ∃ name ∈ fileNames fs location, FoundAs g.directory name u

theorem Linked.eq_of_name {extract : Extractor} {fs : FileSystem} {g : UnitGraph}
    (h : g.Linked extract fs) {u v : BuildUnit} (hu : u ∈ g.units) (hv : v ∈ g.units)
    (hname : u.name = v.name) : u = v :=
  List.inj_on_of_nodup_map h.distinct hu hv hname

theorem of_ofScan {extract : Extractor} {fs : FileSystem} {asked directory : Path} {found : Scan}
    {g : UnitGraph} (hok : ofScan extract fs asked directory found = .ok g) :
    g.directory = directory ∧ g.units = found.units ∧
      linkAll extract fs (Graph.ofEdges (g.units.map BuildUnit.name) []) g.units = .ok g.graph := by
  rw [ofScan] at hok
  split at hok
  · cases hok
  split at hok
  · cases hok
  obtain ⟨graph, hlink, rfl⟩ := ok_of_map hok
  exact ⟨rfl, rfl, hlink⟩

theorem linked_of_discoverWith {extract : Extractor} {fs : FileSystem} {path : Path}
    {g : UnitGraph} (hok : (discoverWith extract fs path).2 = .ok g) : g.Linked extract fs := by
  rw [discoverWith] at hok
  split at hok
  · cases hok
  rename_i location hlocation
  obtain ⟨hdirectory, hunits, hlink⟩ := of_ofScan hok
  have hdistinct : (g.units.map BuildUnit.name).Nodup := by
    rw [hunits]
    exact nodup_scan _ _ (by simp)
  have hnodes := Graph.contains_ofEdges (g.units.map BuildUnit.name) []
  have hedges := Graph.dependsOn_ofEdges (g.units.map BuildUnit.name) []
  obtain ⟨hlinked, hcontains, hreadable, hdepends⟩ :=
    linkAll_spec (Graph.wellFormed_ofEdges _ _) hlink
  refine ⟨hdistinct, hlinked, ?_, hreadable, ?_, path, location, hlocation, hdirectory, ?_⟩
  · intro name
    rw [hcontains, hnodes]
  · intro u hu sql hread name
    rw [hdepends]
    constructor
    · intro hcase
      rcases hcase with hd | ⟨v, hv, text, ht, hname, hm, -, hk⟩
      · exact absurd ((hedges _ _).mp hd).1 List.not_mem_nil
      · cases List.inj_on_of_nodup_map hdistinct hu hv hname
        cases hread.symm.trans ht
        exact ⟨hm, (hnodes name).mp hk⟩
    · intro hcase
      rcases hcase with ⟨hm, hk⟩
      have hself := (hnodes u.name).mpr (List.mem_map_of_mem hu)
      exact Or.inr ⟨u, hu, sql, hread, rfl, hm, hself, (hnodes name).mpr hk⟩
  · intro u hu
    rw [hunits] at hu
    rw [hdirectory]
    exact (mem_scan hu).resolve_left (by simp)

/-! ### Build orders of units -/

theorem Linked.unit?_eq_some {extract : Extractor} {fs : FileSystem} {g : UnitGraph}
    (h : g.Linked extract fs) {u : BuildUnit} (hu : u ∈ g.units) : g.unit? u.name = some u := by
  cases hfind : g.unit? u.name with
  | none => exact absurd (beq_iff_eq.mpr rfl) (List.find?_eq_none.mp hfind u hu)
  | some v =>
    have hv := List.find?_some hfind
    rw [h.eq_of_name (List.mem_of_find?_eq_some hfind) hu (beq_iff_eq.mp hv)]

theorem Linked.map_name_filterMap {extract : Extractor} {fs : FileSystem} {g : UnitGraph}
    (h : g.Linked extract fs) {names : List String}
    (hnames : ∀ name ∈ names, name ∈ g.units.map BuildUnit.name) :
    (names.filterMap g.unit?).map BuildUnit.name = names := by
  induction names with
  | nil => rfl
  | cons name names ih =>
    obtain ⟨u, hu, rfl⟩ := List.mem_map.mp (hnames name (by simp))
    rw [List.filterMap_cons, h.unit?_eq_some hu]
    simp only [List.map_cons]
    rw [ih fun other hother => hnames other (by simp [hother])]

theorem Linked.names_of_buildOrder {extract : Extractor} {fs : FileSystem} {g : UnitGraph}
    (h : g.Linked extract fs) {order : List BuildUnit} (hok : g.buildOrder = .ok order) :
    g.graph.resolveOrder = .ok (order.map BuildUnit.name) := by
  rw [buildOrder] at hok
  split at hok
  · cases hok
  rename_i names hresolve
  cases hok
  obtain ⟨-, hall, -⟩ := h.wellFormed.of_resolveOrder hresolve
  rw [h.map_name_filterMap fun name hname => (h.contains_iff name).mp ((hall name).mp hname),
    hresolve]

/-- The order of the units lists each of them once, and their names respect the edges. -/
theorem Linked.of_buildOrder {extract : Extractor} {fs : FileSystem} {g : UnitGraph}
    (h : g.Linked extract fs) {order : List BuildUnit} (hok : g.buildOrder = .ok order) :
    (order.map BuildUnit.name).Nodup ∧ (∀ u, u ∈ order ↔ u ∈ g.units) ∧
      g.graph.Respects (order.map BuildUnit.name) := by
  have hresolve := h.names_of_buildOrder hok
  obtain ⟨hnodup, hall, hrespects⟩ := h.wellFormed.of_resolveOrder hresolve
  refine ⟨hnodup, fun u => ?_, hrespects⟩
  rw [buildOrder, hresolve] at hok
  have horder : (order.map BuildUnit.name).filterMap g.unit? = order := Except.ok.inj hok
  constructor
  · intro hu
    rw [← horder] at hu
    obtain ⟨name, -, hname⟩ := List.mem_filterMap.mp hu
    exact List.mem_of_find?_eq_some hname
  · intro hu
    have hname := (h.contains_iff u.name).mpr (List.mem_map_of_mem hu)
    rw [← horder, List.mem_filterMap]
    exact ⟨u.name, (hall _).mpr hname, h.unit?_eq_some hu⟩

end UnitGraph

namespace BuildPlan

/-- What holds of a plan: its units are linked, and its order lists each of them once, behind what
it depends on. -/
structure Resolved (extract : Extractor) (fs : FileSystem) (plan : BuildPlan) : Prop where
  linked : plan.discovered.Linked extract fs
  nodup : plan.names.Nodup
  mem_order : ∀ u, u ∈ plan.order ↔ u ∈ plan.discovered.units
  respects : plan.discovered.graph.Respects plan.names

/-- A plan is made of discovered units and of their order. -/
theorem discoverWith_of_resolveWith {extract : Extractor} {fs : FileSystem} {path : Path}
    {plan : BuildPlan} (hok : (resolveWith extract fs path).2 = .ok plan) :
    (UnitGraph.discoverWith extract fs path).2 = .ok plan.discovered ∧
      plan.discovered.buildOrder = .ok plan.order := by
  rw [resolveWith] at hok
  cases hfound : (UnitGraph.discoverWith extract fs path).2 with
  | error e =>
    simp only [hfound] at hok
    cases hok
  | ok g =>
    simp only [hfound, ofGraph] at hok
    split at hok
    · cases hok
    rename_i order horder
    cases hok
    exact ⟨rfl, horder⟩

theorem resolved_of_resolveWith {extract : Extractor} {fs : FileSystem} {path : Path}
    {plan : BuildPlan} (hok : (resolveWith extract fs path).2 = .ok plan) :
    plan.Resolved extract fs := by
  obtain ⟨hfound, horder⟩ := discoverWith_of_resolveWith hok
  have hlinked := UnitGraph.linked_of_discoverWith hfound
  obtain ⟨hnodup, hmem, hrespects⟩ := hlinked.of_buildOrder horder
  exact ⟨hlinked, hnodup, hmem, hrespects⟩

/-- The plan that comes of the sources in a directory, of what they refer to, and of the order of
their names. -/
theorem resolveWith_eq_ok {extract : Extractor} {fs : FileSystem} {path : Path}
    {location : Location} {units : List BuildUnit} {graph : Graph} {order : List String}
    (hlocation : fs.canonicalize path = .ok location)
    (hscan : UnitGraph.scan location.path [] (UnitGraph.fileNames fs location) = ⟨units, [], none⟩)
    (hunits : units ≠ [])
    (hlink : UnitGraph.linkAll extract fs (Graph.ofEdges (units.map BuildUnit.name) []) units =
      .ok graph)
    (horder : graph.resolveOrder = .ok order) :
    let found : UnitGraph := ⟨location.path, units, graph⟩
    (resolveWith extract fs path).2 = .ok ⟨found, order.filterMap found.unit?⟩ := by
  have hdiscover : (UnitGraph.discoverWith extract fs path).2 =
      .ok ⟨location.path, units, graph⟩ := by
    have hsome : units.isEmpty = false := List.isEmpty_eq_false_iff.mpr hunits
    simp only [UnitGraph.discoverWith, hlocation, hscan, UnitGraph.ofScan, hsome, hlink]
    rfl
  simp only [resolveWith, hdiscover, ofGraph, UnitGraph.buildOrder, horder]

end BuildPlan

end QueryBuild

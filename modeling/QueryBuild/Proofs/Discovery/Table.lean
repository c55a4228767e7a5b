import QueryBuild.Proofs.Build.Failure
import QueryBuild.Proofs.Graph.Representation
/-!
# The tables of discovered units

Discovered units are kept three times: as a list, as the positions of their names, and as the nodes
of a graph. The three agree, so that no unit and no reference between units is lost on the way to a
build order.
-/

namespace QueryBuild

namespace UnitGraph

/-- The positions of units by their names, entered one after the other. -/
def positions (units : List BuildUnit) : Std.HashMap String Nat :=
  units.zipIdx.foldl (fun table entry => table.insert entry.1.name entry.2) ∅

/-! ### Positions -/

theorem positions_concat (units : List BuildUnit) (u : BuildUnit) :
    positions (units ++ [u]) = (positions units).insert u.name units.length := by
  simp [positions, List.zipIdx_append]

theorem getElem?_positions {units : List BuildUnit} (h : (units.map BuildUnit.name).Nodup)
    (name : String) (position : Nat) :
    (positions units)[name]? = some position ↔
      (units.map BuildUnit.name)[position]? = some name := by
  induction units using List.reverseRecOn with
  | nil => simp [positions]
  | append_singleton units u ih =>
    rw [List.map_append, List.map_singleton, ← List.concat_eq_append, List.nodup_concat] at h
    obtain ⟨hnew, hnodup⟩ := h
    have hlength : (units.map BuildUnit.name).length = units.length := List.length_map _
    rw [positions_concat, Std.HashMap.getElem?_insert, List.map_append, List.map_singleton]
    by_cases hname : u.name = name
    · subst hname
      rw [if_pos (beq_self_eq_true _), Option.some.injEq]
      constructor
      · intro hposition
        rw [← hposition, ← hlength, List.getElem?_concat_length]
      · intro hget
        rcases Nat.lt_trichotomy position units.length with hlt | heq | hgt
        · rw [List.getElem?_append_left (by rwa [hlength])] at hget
          exact absurd (List.mem_of_getElem? hget) hnew
        · exact heq.symm
        · rw [List.getElem?_eq_none (by simp; omega)] at hget
          cases hget
    · rw [if_neg (by simpa using hname), ih hnodup]
      rcases Nat.lt_or_ge position units.length with hlt | hge
      · rw [List.getElem?_append_left (by rwa [hlength])]
      · rw [List.getElem?_append_right (by rwa [hlength]),
          List.getElem?_eq_none (by rwa [hlength])]
        refine iff_of_false (by simp) fun hget => ?_
        exact hname (List.mem_singleton.mp (List.mem_of_getElem? hget)).symm

/-- To look up a name in the table is to look for the unit that has it. -/
theorem Linked.unit?_eq_positions {extract : Extractor} {fs : FileSystem} {g : UnitGraph}
    (h : g.Linked extract fs) (name : String) :
    g.unit? name = (positions g.units)[name]?.bind fun position => g.units[position]? := by
  by_cases hname : name ∈ g.units.map BuildUnit.name
  · obtain ⟨u, hu, rfl⟩ := List.mem_map.mp hname
    obtain ⟨position, hposition⟩ := List.mem_iff_getElem?.mp hu
    have hentry := (getElem?_positions h.distinct u.name position).mpr (by simp [hposition])
    rw [h.unit?_eq_some hu, hentry, Option.bind_some, hposition]
  · have hnone : (positions g.units)[name]? = none := by
      rw [Option.eq_none_iff_forall_ne_some]
      intro position hentry
      exact hname (List.mem_of_getElem? ((getElem?_positions h.distinct _ _).mp hentry))
    rw [hnone, Option.bind_none, unit?, List.find?_eq_none]
    intro u hu heq
    exact hname (List.mem_map.mpr ⟨u, hu, beq_iff_eq.mp heq⟩)

/-! ### The graph -/

/-- Linking units only adds edges. -/
theorem exists_edges_of_linkAll {extract : Extractor} {fs : FileSystem} {units : List BuildUnit}
    {g linked : Graph} (hok : linkAll extract fs g units = .ok linked) :
    ∃ edges : List (String × String),
      linked = edges.foldl (fun g edge => g.addEdge edge.1 edge.2) g := by
  fun_induction linkAll extract fs g units with
  | case1 g =>
    cases hok
    exact ⟨[], rfl⟩
  | case2 g u units e hread => cases hok
  | case3 g u units sql hread ih =>
    obtain ⟨edges, rfl⟩ := ih hok
    refine ⟨(extract sql).map (fun reference => (u.name, reference)) ++ edges, ?_⟩
    rw [List.foldl_append, List.foldl_map]
    rfl

/-- The graph of discovered units is made of their names and of edges. -/
theorem exists_edges_of_discoverWith {extract : Extractor} {fs : FileSystem} {path : Path}
    {g : UnitGraph} (hok : (discoverWith extract fs path).2 = .ok g) :
    ∃ edges, g.graph = Graph.ofEdges (g.units.map BuildUnit.name) edges := by
  rw [discoverWith] at hok
  split at hok
  · cases hok
  obtain ⟨-, -, hlink⟩ := of_ofScan hok
  exact exists_edges_of_linkAll hlink

/-! ### The tables together -/

/-- The nodes of the graph of discovered units are their names, in their order. What a unit depends
on is the increasing list of those names that the extractor gives for its text and that units have,
and the converse is kept with it. A unit is found by its name, in the list as by the table of
positions, and nothing is found by another name. A build order has as many units as were discovered,
with the names in the order of the graph. -/
theorem tables_of_discoverWith {extract : Extractor} {fs : FileSystem} {path : Path}
    {g : UnitGraph} (hok : (discoverWith extract fs path).2 = .ok g) :
    g.graph.nodes.toList = g.units.map BuildUnit.name ∧
    (∀ u ∈ g.units, ∃ sql, u.sourceText fs = .ok sql ∧
      (g.graph.parents u.name).Pairwise (· < ·) ∧
      ∀ name, name ∈ g.graph.parents u.name ↔
        name ∈ extract sql ∧ name ∈ g.units.map BuildUnit.name) ∧
    (∀ name, name ∉ g.graph.nodes → g.graph.parents name = []) ∧
    (∀ name, (g.graph.children name).Pairwise (· < ·) ∧
      ∀ dependent, dependent ∈ g.graph.children name ↔ name ∈ g.graph.parents dependent) ∧
    (∀ u ∈ g.units, u.name ∈ g.graph.nodes ∧ g.unit? u.name = some u) ∧
    (∀ name, name ∉ g.graph.nodes → g.unit? name = none) ∧
    (∀ name, g.unit? name = (positions g.units)[name]?.bind fun position => g.units[position]?) ∧
    ∀ order, g.buildOrder = .ok order →
      order.length = g.units.length ∧
      g.graph.resolveOrder = .ok (order.map BuildUnit.name) := by
  have h := linked_of_discoverWith hok
  obtain ⟨edges, hgraph⟩ := exists_edges_of_discoverWith hok
  have hlisted : g.graph.Listed := by
    rw [hgraph, Graph.ofEdges_eq_ofEdits]
    exact Graph.listed_ofEdits _
  have hnodes : g.graph.nodes.toList = g.units.map BuildUnit.name := by
    rw [hgraph, Graph.nodes_ofEdges h.distinct]
  have hmem : ∀ name, name ∈ g.graph.nodes ↔ name ∈ g.units.map BuildUnit.name := by
    intro name
    rw [← hnodes, Array.mem_toList_iff]
  refine ⟨hnodes, fun u hu => ?_, fun name hname => ?_, fun name => ?_, fun u hu => ?_,
    fun name hname => ?_, h.unit?_eq_positions, fun order horder => ?_⟩
  · obtain ⟨sql, hread⟩ := h.readable u hu
    exact ⟨sql, hread, hlisted.parentsSorted u.name, h.dependsOn_iff u hu sql hread⟩
  · rw [List.eq_nil_iff_forall_not_mem]
    intro dependency hd
    exact hname ((h.wellFormed.contains_iff name).mp (h.wellFormed.known _ _ hd).1)
  · exact ⟨hlisted.childrenSorted name, fun dependent => h.wellFormed.mirrored dependent name⟩
  · exact ⟨(hmem u.name).mpr (List.mem_map_of_mem hu), h.unit?_eq_some hu⟩
  · rw [unit?, List.find?_eq_none]
    intro u hu heq
    exact hname ((hmem name).mpr (List.mem_map.mpr ⟨u, hu, beq_iff_eq.mp heq⟩))
  · obtain ⟨hnodup, hall, -⟩ := h.of_buildOrder horder
    have hperm : order.Perm g.units :=
      (List.perm_ext_iff_of_nodup (.of_map _ hnodup) (.of_map _ h.distinct)).mpr hall
    exact ⟨hperm.length_eq, h.names_of_buildOrder horder⟩

end UnitGraph

namespace BuildPlan

namespace Sample

/-- The first unit refers to the second one and to a file from elsewhere. -/
def ahead : Extractor :=
  fun sql => if sql == "SELECT 1" then ["raw", "b"] else []

def aheadGraph : Graph :=
  Graph.ofEdges ["a", "b"] [("a", "raw"), ("a", "b")]

def aheadUnits : UnitGraph :=
  ⟨⟨"/w"⟩, [first, second], aheadGraph⟩

theorem resolve_ahead :
    (resolveWith ahead files ⟨"/w"⟩).2 = .ok ⟨aheadUnits, [second, first]⟩ := by
  have hfirst : ahead "SELECT 1" = ["raw", "b"] := by decide
  have hsecond : ahead "SELECT * FROM 'a.csv'" = [] := by decide
  have hlink : UnitGraph.linkAll ahead files (Graph.ofEdges ["a", "b"] []) [first, second] =
      .ok aheadGraph := by
    simp only [UnitGraph.linkAll, sourceText_first, sourceText_second, UnitGraph.link, hfirst,
      hsecond]
    rfl
  have horder : aheadGraph.resolveOrder = .ok ["b", "a"] := by cbv
  exact resolveWith_files hlink horder

end Sample

/-- A reference to a unit that is discovered later is kept, one to a file from elsewhere is not, and
the order of the units turns round. -/
theorem later_unit_linked :
    (UnitGraph.discoverWith Sample.ahead Sample.files ⟨"/w"⟩).2 = .ok Sample.aheadUnits ∧
      Sample.aheadGraph.nodes.toList = ["a", "b"] ∧
      (∀ name, name ∈ Sample.aheadGraph.parents "a" ↔ name ∈ ["raw", "b"] ∧ name ∈ ["a", "b"]) ∧
      Sample.aheadUnits.unit? "raw" = none ∧
      Sample.aheadGraph.resolveOrder = .ok ["b", "a"] := by
  obtain ⟨hfound, horder⟩ := discoverWith_of_resolveWith Sample.resolve_ahead
  obtain ⟨hnodes, hparents, -, -, -, hunknown, -, horders⟩ :=
    UnitGraph.tables_of_discoverWith hfound
  obtain ⟨sql, hread, -, hmem⟩ := hparents Sample.first (by simp [Sample.aheadUnits])
  rw [Sample.sourceText_first] at hread
  cases hread
  have hraw : "raw" ∉ Sample.aheadUnits.graph.nodes := by
    rw [← Array.mem_toList_iff, hnodes]
    decide
  exact ⟨hfound, hnodes, hmem, hunknown _ hraw, (horders _ horder).2⟩

end BuildPlan

end QueryBuild

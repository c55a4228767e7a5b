import QueryBuild.Graph.Reach
import QueryBuild.Proofs.Graph.Recursion
/-!
# The order in which edges are given

Whatever a graph answers is read off its nodes and its lists. A sorted list is told by its
members, and these are the edges that were given between known nodes. So it makes no difference in
which order edges are given, nor how often: orders, cycles and walks are the same as well, although
each of their steps goes through a list from left to right.
-/

namespace QueryBuild.Graph

variable {g g' : Graph}

/-- The graph that edits make of the empty one when each of them searches the sorted lists. -/
def performAll (edits : List Edit) : Graph :=
  edits.foldl (fun g edit => (g.perform edit).2) empty

theorem performAll_eq (edits : List Edit) : performAll edits = ofEdits edits := by
  induction edits using List.reverseRecOn with
  | nil => rfl
  | append_singleton edits edit ih =>
    rw [performAll, List.foldl_append, List.foldl_cons, List.foldl_nil, ← performAll, ih,
      ofEdits_concat, (listed_ofEdits edits).perform]

/-! ### Graphs that are alike -/

theorem Alike.visitAll (h : Alike g g') (path order nodes : List String) :
    g'.visitAll path order nodes = g.visitAll path order nodes := by
  fun_induction Graph.visitAll g path order nodes with
  | case1 path order => rw [Graph.visitAll]
  | case2 path order node nodes hcolour ih => rw [visitAll_of_finished hcolour, ih]
  | case3 path order node nodes hcolour =>
    rw [Graph.visitAll]
    split <;> simp_all
  | case4 path order node nodes hcolour cycle hcycle ih =>
    rw [visitAll_of_unvisited hcolour, h.parents, ih, hcycle]
    rfl
  | case5 path order node nodes hcolour order' horder ih ih' =>
    rw [visitAll_of_unvisited hcolour, h.parents, ih, horder]
    exact ih'

theorem Alike.resolveOrder (h : Alike g g') (hg : g.WellFormed) (hg' : g'.WellFormed) :
    g'.resolveOrder = g.resolveOrder := by
  rw [resolveOrder_eq_depthFirst hg', resolveOrder_eq_depthFirst hg, depthFirst, depthFirst,
    h.nodes]
  exact h.visitAll [] [] _

theorem Alike.nodeSet (h : Alike g g') : g'.nodeSet = g.nodeSet := by
  rw [Graph.nodeSet, Graph.nodeSet, h.nodes]

theorem Alike.allDependencies (h : Alike g g') (node : String) :
    g'.allDependencies node = g.allDependencies node := by
  rw [Graph.allDependencies, Graph.allDependencies, h.nodeSet, funext h.parents]

theorem Alike.allDependents (h : Alike g g') (node : String) :
    g'.allDependents node = g.allDependents node := by
  rw [Graph.allDependents, Graph.allDependents, h.nodeSet, funext h.children]

/-! ### Lists that are told by their members -/

theorem eq_of_sorted {names names' : List String} (hsorted : names.Pairwise (· < ·))
    (hsorted' : names'.Pairwise (· < ·)) (hmem : ∀ name, name ∈ names ↔ name ∈ names') :
    names = names' := by
  have hperm : names.Perm names' :=
    (List.perm_ext_iff_of_nodup (hsorted.imp ne_of_lt) (hsorted'.imp ne_of_lt)).mpr hmem
  exact hperm.eq_of_pairwise (fun _ _ _ _ hlt hgt => absurd hgt hlt.asymm) hsorted hsorted'

theorem alike_of_dependsOn (hg : g.WellFormed) (hg' : g'.WellFormed) (hlisted : g.Listed)
    (hlisted' : g'.Listed) (hnodes : g'.nodes = g.nodes)
    (hedges : ∀ dependent dependency,
      g'.DependsOn dependent dependency ↔ g.DependsOn dependent dependency) : Alike g g' := by
  have hparents : ∀ node, g'.parents node = g.parents node := by
    intro node
    exact eq_of_sorted (hlisted'.parentsSorted node) (hlisted.parentsSorted node) (hedges node)
  have hchildren : ∀ node, g'.children node = g.children node := by
    intro node
    apply eq_of_sorted (hlisted'.childrenSorted node) (hlisted.childrenSorted node)
    intro dependent
    rw [hg'.mirrored, hg.mirrored, hedges]
  refine ⟨hnodes, hparents, hchildren, ?_⟩
  rw [edgeCount_eq, edgeCount_eq, hnodes, funext hparents]

/-! ### Edges that are given together -/

theorem listed_ofEdges (nodes : List String) (edges : List (String × String)) :
    (ofEdges nodes edges).Listed := by
  rw [ofEdges_eq_ofEdits]
  exact listed_ofEdits _

theorem alike_ofEdges (nodes : List String) {edges edges' : List (String × String)}
    (h : ∀ edge, edge ∈ edges ↔ edge ∈ edges') :
    Alike (ofEdges nodes edges) (ofEdges nodes edges') := by
  have hnodes : (ofEdges nodes edges').nodes = (ofEdges nodes edges).nodes := by
    rw [ofEdges_eq_addEdges, ofEdges_eq_addEdges, nodes_addEdges, nodes_addEdges]
  apply alike_of_dependsOn (wellFormed_ofEdges _ _) (wellFormed_ofEdges _ _) (listed_ofEdges _ _)
    (listed_ofEdges _ _) hnodes
  intro dependent dependency
  rw [dependsOn_ofEdges, dependsOn_ofEdges, h]

/-- Of the edges only their set counts. Two lists with the same pairs, in any order and repeated
at will, make graphs with the same nodes, the same number of edges, the same neighbours of every
name, the same walks upstream and downstream, and the same build order or the same cycle; and so
they do when every edge is put into its place by binary search. -/
theorem ofEdges_of_same_edges (nodes : List String) (edges edges' : List (String × String))
    (h : ∀ edge, edge ∈ edges ↔ edge ∈ edges') :
    (ofEdges nodes edges').nodes = (ofEdges nodes edges).nodes ∧
    (ofEdges nodes edges').edgeCount = (ofEdges nodes edges).edgeCount ∧
    (∀ node, (ofEdges nodes edges').parents node = (ofEdges nodes edges).parents node ∧
      (ofEdges nodes edges').children node = (ofEdges nodes edges).children node) ∧
    (∀ node,
      (ofEdges nodes edges').allDependencies node = (ofEdges nodes edges).allDependencies node ∧
      (ofEdges nodes edges').allDependents node = (ofEdges nodes edges).allDependents node) ∧
    (ofEdges nodes edges').resolveOrder = (ofEdges nodes edges).resolveOrder ∧
    ∀ given, performAll (nodes.map .node ++ given.map fun edge => .edge edge.1 edge.2) =
      ofEdges nodes given := by
  have halike := alike_ofEdges nodes h
  refine ⟨halike.nodes, halike.edgeCount,
    fun node => ⟨halike.parents node, halike.children node⟩,
    fun node => ⟨halike.allDependencies node, halike.allDependents node⟩,
    halike.resolveOrder (wellFormed_ofEdges _ _) (wellFormed_ofEdges _ _), ?_⟩
  intro given
  rw [performAll_eq, ofEdges_eq_ofEdits]

/-- Edges of a cycle in another order, with a repetition and with a name that is not known. -/
theorem ofEdges_of_same_edges_cycle :
    let edges := [("a", "c"), ("a", "b"), ("b", "a"), ("c", "x")]
    let edges' := [("c", "x"), ("b", "a"), ("a", "b"), ("a", "c"), ("a", "b")]
    (∀ edge, edge ∈ edges ↔ edge ∈ edges') ∧
      (ofEdges ["c", "a", "b"] edges').resolveOrder =
        (ofEdges ["c", "a", "b"] edges).resolveOrder ∧
      (ofEdges ["c", "a", "b"] edges').allDependencies "a" =
        (ofEdges ["c", "a", "b"] edges).allDependencies "a" := by
  have hsame : ∀ edge : String × String,
      edge ∈ [("a", "c"), ("a", "b"), ("b", "a"), ("c", "x")] ↔
        edge ∈ [("c", "x"), ("b", "a"), ("a", "b"), ("a", "c"), ("a", "b")] := by
    intro edge
    simp only [List.mem_cons, List.not_mem_nil, or_false]
    tauto
  obtain ⟨-, -, -, hwalks, hresolve, -⟩ := ofEdges_of_same_edges ["c", "a", "b"] _ _ hsame
  exact ⟨hsame, hresolve, (hwalks "a").1⟩

end QueryBuild.Graph

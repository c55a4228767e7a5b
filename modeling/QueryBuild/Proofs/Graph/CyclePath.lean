import QueryBuild.Proofs.Graph.BuildOrder
/-!
# The path of a cycle

A graph without a build order is answered with a path. Read entry by entry, the path goes from a
node over nodes that each depend on the next one back to its start, and it meets no other node
twice.
-/

namespace QueryBuild.Graph

variable {g : Graph}

theorem Closed.parents_getElem {path : List String} (hc : g.Closed path) (i : Nat)
    (hi : i + 1 < path.length) : path[i + 1] ∈ g.parents path[i] := by
  obtain ⟨node, between, -, -, hchain⟩ := hc
  exact hchain.getElem i hi

/-- The entries of a closed path in front of its last one are different nodes. -/
theorem Closed.dropLast (h : g.WellFormed) {path : List String} (hc : g.Closed path) :
    path.dropLast.Nodup ∧ ∀ node ∈ path.dropLast, node ∈ g.nodes := by
  have hedge := hc.parents_getElem
  obtain ⟨node, between, rfl, hnodup, -⟩ := hc
  have hfront : (node :: (between ++ [node])).dropLast = node :: between := by
    rw [← List.cons_append, List.dropLast_concat]
  refine ⟨hfront ▸ hnodup, ?_⟩
  intro other hother
  obtain ⟨i, hi, rfl⟩ := List.getElem_of_mem hother
  have hnext : i + 1 < (node :: (between ++ [node])).length := by
    rw [List.length_dropLast] at hi
    omega
  have hknown := (h.known _ _ (hedge i hnext)).1
  rw [List.getElem_dropLast]
  exact (h.contains_iff _).mp hknown

theorem Closed.transGen_of_mem {path : List String} (hc : g.Closed path) {node : String}
    (hmem : node ∈ path) : Relation.TransGen g.DependsOn node node := by
  obtain ⟨first, between, rfl, -, hchain⟩ := hc
  have hback := transGen_of_isChain hchain
  rcases List.mem_cons.mp hmem with rfl | hmem
  · exact hback
  rcases List.mem_append.mp hmem with hmem | hmem
  · obtain ⟨front, behind, rfl⟩ := List.append_of_mem hmem
    rw [List.append_assoc, List.cons_append, ← List.cons_append, List.isChain_split] at hchain
    exact (transGen_of_isChain hchain.2).trans (transGen_of_isChain hchain.1)
  · rw [List.mem_singleton.mp hmem]
    exact hback

/-- What can be reached can be reached on a path that meets no node twice. -/
theorem exists_simple_path {related : String → String → Prop} {first last : String}
    (h : Relation.ReflTransGen related first last) :
    ∃ path : List String, path.Nodup ∧ path.IsChain related ∧ path.head? = some first ∧
      path.getLast? = some last := by
  induction h using Relation.ReflTransGen.head_induction_on with
  | refl => exact ⟨[last], by simp, .singleton last, rfl, rfl⟩
  | @head first next hedge _ ih =>
    obtain ⟨path, hnodup, hchain, hhead, hlast⟩ := ih
    by_cases hmem : first ∈ path
    · -- the path comes by: it is left out up to there
      obtain ⟨front, behind, rfl⟩ := List.append_of_mem hmem
      refine ⟨first :: behind, (List.nodup_append.mp hnodup).2.1,
        (List.isChain_append.mp hchain).2.1, rfl, ?_⟩
      rwa [List.getLast?_append_of_ne_nil _ (List.cons_ne_nil _ _)] at hlast
    · refine ⟨first :: path, List.nodup_cons.mpr ⟨hmem, hnodup⟩, ?_, rfl, ?_⟩
      · refine List.isChain_cons.mpr ⟨fun other hother => ?_, hchain⟩
        cases hhead.symm.trans hother
        exact hedge
      · cases path with
        | nil => cases hhead
        | cons _ _ => exact hlast

/-- A node lies on a closed path exactly if it depends on itself. -/
theorem exists_closed_iff (node : String) :
    (∃ path, g.Closed path ∧ node ∈ path) ↔ Relation.TransGen g.DependsOn node node := by
  constructor
  · intro hcase
    rcases hcase with ⟨path, hclosed, hmem⟩
    exact hclosed.transGen_of_mem hmem
  · intro hback
    obtain ⟨next, hedge, hway⟩ := Relation.TransGen.head'_iff.mp hback
    obtain ⟨path, hnodup, hchain, hhead, hlast⟩ := exists_simple_path hway
    obtain ⟨between, rfl⟩ := List.getLast?_eq_some_iff.mp hlast
    refine ⟨node :: (between ++ [node]), ⟨node, between, rfl, ?_, ?_⟩, List.mem_cons_self⟩
    · exact (List.perm_append_singleton node between).nodup_iff.mp hnodup
    · refine List.isChain_cons.mpr ⟨fun other hother => ?_, hchain⟩
      cases hhead.symm.trans hother
      exact hedge

/-- Without an order the answer is a genuine cycle: a path of two entries or more that ends where it
begins, whose other entries are different nodes, and each entry of which depends on the next one. -/
theorem resolveOrder_closes_path (edits : List Edit) {cycle : Cycle}
    (hcycle : (ofEdits edits).resolveOrder = .error cycle) :
    2 ≤ cycle.path.length ∧ cycle.path.head? = cycle.path.getLast? ∧
      cycle.path.dropLast.Nodup ∧ (∀ node ∈ cycle.path.dropLast, node ∈ (ofEdits edits).nodes) ∧
      (∀ i (hi : i + 1 < cycle.path.length),
        cycle.path[i + 1] ∈ (ofEdits edits).parents cycle.path[i]) ∧
      ∀ order, (ofEdits edits).resolveOrder ≠ .ok order := by
  have h := wellFormed_ofEdits edits
  rcases resolveOrder_spec h with ⟨order, hrun, -⟩ | ⟨path, hrun, hclosed⟩
  · cases hrun.symm.trans hcycle
  · cases hrun.symm.trans hcycle
    obtain ⟨hnodup, hnodes⟩ := hclosed.dropLast h
    have hedge := hclosed.parents_getElem
    obtain ⟨node, between, rfl, -, -⟩ := hclosed
    refine ⟨by simp, ?_, hnodup, hnodes, hedge, ?_⟩
    · rw [← List.cons_append, List.getLast?_concat]
      rfl
    · intro order hok
      cases hrun.symm.trans hok

/-- The path of two nodes that need each other, one of which is needed by a third. -/
theorem two_nodes_close_path :
    let edits : List Edit :=
      [.node "c", .node "a", .node "b", .edge "c" "b", .edge "a" "b", .edge "b" "a"]
    (ofEdits edits).resolveOrder = .error ⟨["b", "a", "b"]⟩ ∧
      ["b", "a"].Nodup ∧ "a" ∈ (ofEdits edits).parents "b" := by
  have hcycle : (ofEdits [.node "c", .node "a", .node "b", .edge "c" "b", .edge "a" "b",
      .edge "b" "a"]).resolveOrder = .error ⟨["b", "a", "b"]⟩ := by cbv
  obtain ⟨-, -, hnodup, -, hedge, -⟩ := resolveOrder_closes_path _ hcycle
  exact ⟨hcycle, hnodup, hedge 0 (by simp)⟩

end QueryBuild.Graph

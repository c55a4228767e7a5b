import Mathlib.Data.Finset.Card
import Mathlib.Data.Finset.Dedup
import QueryBuild.Proofs.Graph.BuildOrder
import QueryBuild.Proofs.Graph.Representation
import QueryBuild.Proofs.Outcome
/-!
# Depth-first search by recursion

A build order can also be found by a function that calls itself for every dependency that it has
not met before. The search with a stack of its own takes the same way: a frame of the stack is a
call that waits for one of its dependencies. So it gives the same order, and if there is none, the
same cycle.
-/

namespace QueryBuild.Graph

variable {g : Graph} {s : Search}

/-! ### The recursion -/

/-- How far a recursion has come with a node. The nodes that it has listed are finished, and those
on the path to the place where it is are in progress. -/
def colour (path order : List String) (node : String) : Visit :=
  if node ∈ order then .finished else if node ∈ path then .inProgress else .unvisited

/-- The number of nodes off a path that depend on something. -/
def offPath (g : Graph) (path : List String) : Nat :=
  (g.parentLists.keys.toFinset \ path.toFinset).card

private theorem offPath_concat (g : Graph) (path : List String) (node : String) :
    g.parentLists.keys.toFinset \ (path ++ [node]).toFinset ⊆
      g.parentLists.keys.toFinset \ path.toFinset := by
  apply Finset.sdiff_subset_sdiff (Finset.Subset.refl _)
  intro other hother
  simp only [List.mem_toFinset, List.mem_append] at hother ⊢
  exact Or.inl hother

private theorem offPath_concat_lt {path : List String} {node : String} (hnew : node ∉ path)
    (hparents : g.parents node ≠ []) : g.offPath (path ++ [node]) < g.offPath path := by
  have hkey : node ∈ g.parentLists := by
    by_contra hnone
    exact hparents (Std.HashMap.getD_eq_fallback hnone)
  apply Finset.card_lt_card
  rw [Finset.ssubset_iff_of_subset (g.offPath_concat path node)]
  exact ⟨node, by simp [hkey, hnew], by simp⟩

private theorem not_mem_of_unvisited {path order : List String} {node : String}
    (h : colour path order node = .unvisited) : node ∉ path := by
  intro hmem
  simp only [colour, hmem, if_true] at h
  split at h <;> cases h

/-- Visits nodes one after the other. `path` leads to the node that asks for them, and `order`
lists what is finished. A node that is met for the first time is listed behind all that it depends
on; one that is met on the path closes a cycle. -/
def visitAll (g : Graph) (path order : List String) : List String → Except Cycle (List String)
  | [] => .ok order
  | node :: nodes =>
    match _h : colour path order node with
    | .finished => visitAll g path order nodes
    | .inProgress => .error ⟨path.dropWhile (· != node) ++ [node]⟩
    | .unvisited =>
      match visitAll g (path ++ [node]) order (g.parents node) with
      | .error cycle => .error cycle
      | .ok order => visitAll g path (order ++ [node]) nodes
termination_by nodes => (g.offPath path, nodes.length)
decreasing_by
  · exact Prod.Lex.right _ (by simp)
  · by_cases hparents : g.parents node = []
    · rcases Nat.lt_or_eq_of_le (Finset.card_le_card (g.offPath_concat path node)) with hlt | heq
      · exact Prod.Lex.left _ _ hlt
      · rw [offPath, heq, hparents]
        exact Prod.Lex.right _ (by simp)
    · exact Prod.Lex.left _ _ (offPath_concat_lt (not_mem_of_unvisited _h) hparents)
  · exact Prod.Lex.right _ (by simp)

theorem visitAll_of_finished {path order nodes : List String} {node : String}
    (hcolour : colour path order node = .finished) :
    g.visitAll path order (node :: nodes) = g.visitAll path order nodes := by
  rw [visitAll]
  split <;> simp_all

theorem visitAll_of_unvisited {path order nodes : List String} {node : String}
    (hcolour : colour path order node = .unvisited) :
    g.visitAll path order (node :: nodes) =
      ((g.visitAll (path ++ [node]) order (g.parents node)).map (· ++ [node])).bind
        fun order => g.visitAll path order nodes := by
  rw [visitAll]
  split
  · simp_all
  · simp_all
  · cases g.visitAll (path ++ [node]) order (g.parents node) <;> rfl

/-- Visits all nodes of a graph in the order in which they were found. -/
def depthFirst (g : Graph) : Except Cycle (List String) :=
  g.visitAll [] [] g.nodes.toList

/-! ### A stack is a recursion that waits -/

/-- What a recursion gives is what a search comes to: it goes on from another search, with other
frames left, once the recursion has listed its nodes, and it ends with the recursion's cycle. -/
def Search.ComesTo (g : Graph) (s : Search) (stack stack' : List Frame) (nodes : List String) :
    Except Cycle (List String) → Prop
  | .error cycle => search g s stack = .error (.cyclic cycle)
  | .ok order => ∃ s' : Search, s'.Consistent g stack' nodes ∧ s'.order.toList = order ∧
      search g s stack = search g s' stack'

theorem Search.Consistent.mark?_eq (h : g.WellFormed) {stack : List Frame} {nodes : List String}
    (hc : s.Consistent g stack nodes) {node : String} (hn : g.contains node = true) :
    s.mark? g node = some (colour nodes.reverse s.order.toList node) := by
  obtain ⟨position, v, -, -, -, hm⟩ := exists_mark h s hc.size hn
  have hlisted := hc.listed node
  have hactive := hc.active node
  rw [hm] at hlisted hactive ⊢
  cases v <;> simp_all [colour]

/-- The topmost frame is taken from the stack when it has nothing left. -/
theorem Search.Consistent.search_finish {position : Nat} {stack : List Frame} {node : String}
    {below : List String} (hc : s.Consistent g ((position, []) :: stack) (node :: below)) :
    search g s ((position, []) :: stack) = search g (s.finish position node) stack := by
  obtain ⟨_, _, hnodes, hp⟩ := hc.top
  cases hnodes
  rw [search]
  simp only [hp]

/-- A node that is entered is listed behind what the recursion lists for its dependencies. -/
theorem Search.ComesTo.finish (h : g.WellFormed) {start stack : List Frame} {position : Nat}
    {node : String} {nodes : List String} {result : Except Cycle (List String)}
    (hcomes : s.ComesTo g start ((position, []) :: stack) (node :: nodes) result) :
    s.ComesTo g start stack nodes (result.map (· ++ [node])) := by
  cases result with
  | error cycle => exact hcomes
  | ok order =>
    obtain ⟨s', hc, rfl, hrun⟩ := hcomes
    refine ⟨s'.finish position node, hc.finish h, by simp [Search.finish], ?_⟩
    rw [hrun, hc.search_finish]

theorem Search.ComesTo.trans {s₁ s₂ : Search} {stack₁ stack₂ stack₃ : List Frame}
    {nodes : List String} {result : Except Cycle (List String)}
    (hrun : search g s₁ stack₁ = search g s₂ stack₂)
    (hcomes : s₂.ComesTo g stack₂ stack₃ nodes result) :
    s₁.ComesTo g stack₁ stack₃ nodes result := by
  cases result with
  | error cycle => exact hrun.trans hcomes
  | ok order =>
    obtain ⟨s', hc, horder, hrest⟩ := hcomes
    exact ⟨s', hc, horder, hrun.trans hrest⟩

/-- What a search does with the next dependency depends on its colour. -/
theorem Search.Consistent.search_next (h : g.WellFormed) {position : Nat} {node : String}
    {nodes : List String} {stack : List Frame} {top : String} {below : List String}
    (hc : s.Consistent g ((position, node :: nodes) :: stack) (top :: below)) {v : Visit}
    (hcolour : colour (top :: below).reverse s.order.toList node = v) :
    s.mark? g node = some v ∧ ∃ q, g.nodes[q]? = some node ∧
      search g s ((position, node :: nodes) :: stack) =
        match v with
        | .finished => search g s ((position, nodes) :: stack)
        | .inProgress => .error (g.close ((position, nodes) :: stack) q)
        | .unvisited =>
          search g (s.enter q) ((q, g.parents node) :: (position, nodes) :: stack) := by
  obtain ⟨_, q, v', -, hdep, hi, hp, hv, -⟩ := hc.next h
  have hmark := hc.mark?_eq h (h.known _ _ hdep).2
  rw [hcolour] at hmark
  have hvisit : s.visits[q]? = some v := by rwa [Search.mark?, hi] at hmark
  refine ⟨hmark, q, hp, ?_⟩
  rw [search]
  simp only [hi]
  split
  · rename_i hv'
    cases hvisit.symm.trans hv'
  · rename_i hv'
    cases hvisit.symm.trans hv'
    rfl
  · rename_i hv'
    cases hvisit.symm.trans hv'
    rfl
  · rename_i hv'
    cases hvisit.symm.trans hv'
    simp only [frame?, hp, Option.map_some]

/-- A path from its last place up to a node reads, the other way round, from that node on. -/
private theorem dropWhile_reverse {upper lower : List String} {node : String}
    (hlower : node ∉ lower) :
    (upper ++ node :: lower).reverse.dropWhile (· != node) = node :: upper.reverse := by
  rw [List.reverse_append, List.reverse_cons, List.append_assoc, List.dropWhile_append_of_pos]
  · simp
  · intro other hother
    have hne : other ≠ node := fun he => hlower (List.mem_reverse.mp (he ▸ hother))
    simpa using hne

/-- A search visits what its topmost frame has left as the recursion does. -/
theorem search_comesTo (h : g.WellFormed) {path order names : List String} {position : Nat}
    {stack : List Frame} {top : String} {below : List String}
    (hc : s.Consistent g ((position, names) :: stack) (top :: below))
    (hpath : path = (top :: below).reverse) (horder : order = s.order.toList) :
    s.ComesTo g ((position, names) :: stack) ((position, []) :: stack) (top :: below)
      (g.visitAll path order names) := by
  fun_induction visitAll g path order names generalizing s position stack top below with
  | case1 path order => exact ⟨s, hc, horder.symm, rfl⟩
  | case2 path order node nodes hcolour ih =>
    subst hpath horder
    obtain ⟨hmark, q, hp, hnext⟩ := hc.search_next h hcolour
    exact .trans hnext (ih (hc.skip hmark) rfl rfl)
  | case3 path order node nodes hcolour =>
    subst hpath horder
    obtain ⟨hmark, q, hp, hnext⟩ := hc.search_next h hcolour
    -- the frames above that of `node` are the path behind it
    obtain ⟨upper, lower, hsplit, -⟩ :=
      List.eq_append_cons_of_mem ((hc.active node).mpr hmark)
    have hlower : node ∉ lower := by
      have hdistinct := hc.distinct
      rw [hsplit, List.nodup_append] at hdistinct
      exact (List.nodup_cons.mp hdistinct.2.1).1
    have hstacked := hc.stacked.descend
    rw [hsplit] at hstacked
    rw [hsplit, dropWhile_reverse hlower, Search.ComesTo, hnext]
    exact congrArg _ (close_eq h hstacked hlower hp)
  | case4 path order node nodes hcolour cycle hinner ih =>
    subst hpath horder
    obtain ⟨hmark, q, hp, hnext⟩ := hc.search_next h hcolour
    have hentered := hc.enter h hp hmark hc.stacked.descend
    have hcomes := ih hentered List.reverse_cons.symm rfl
    rw [hinner] at hcomes
    exact hnext.trans hcomes
  | case5 path order node nodes hcolour order' hinner ih ih' =>
    subst hpath horder
    obtain ⟨hmark, q, hp, hnext⟩ := hc.search_next h hcolour
    -- the frame waits with the other names until the one above it is done
    have hentered := hc.enter h hp hmark hc.stacked.descend
    have hcomes := (ih hentered List.reverse_cons.symm rfl).finish h
    rw [hinner] at hcomes
    obtain ⟨s', hc', horder, hrun⟩ := hcomes
    exact .trans (hnext.trans hrun) (ih' hc' rfl horder.symm)

/-! ### From all nodes -/

theorem searchFrom_eq (h : g.WellFormed) (hc : s.Consistent g [] []) {root : Nat} {node : String}
    (hp : g.nodes[root]? = some node) :
    (colour [] s.order.toList node = .finished ∧ searchFrom g s root = .ok s) ∨
      (colour [] s.order.toList node = .unvisited ∧ s.mark? g node = some .unvisited ∧
        searchFrom g s root = search g (s.enter root) [(root, g.parents node)]) := by
  have hn : g.contains node = true := (h.contains_iff node).mpr (Array.mem_of_getElem? hp)
  have hmark := hc.mark?_eq h hn
  rw [List.reverse_nil] at hmark
  have hvisit : s.visits[root]? = some (colour [] s.order.toList node) := by
    rwa [Search.mark?, (h.index_iff node root).mpr hp] at hmark
  rw [searchFrom, hvisit]
  cases hcolour : colour [] s.order.toList node with
  | unvisited =>
    rw [hcolour] at hmark
    exact Or.inr ⟨rfl, hmark, by simp [frame?, hp]⟩
  | inProgress =>
    rw [hcolour] at hmark
    exact absurd ((hc.active node).mpr hmark) (by simp)
  | finished => exact Or.inl ⟨rfl, rfl⟩

/-- Searches from some nodes, one after the other, give what the recursion gives for them. -/
theorem foldlM_searchFrom_eq (h : g.WellFormed) (hc : s.Consistent g [] []) {roots : List Nat}
    {names order : List String} (horder : order = s.order.toList)
    (hroots : List.Forall₂ (fun root node => g.nodes[root]? = some node) roots names) :
    (roots.foldlM (searchFrom g) s).map (·.order.toList) =
      (g.visitAll [] order names).mapError .cyclic := by
  induction hroots generalizing s order with
  | nil =>
    rw [visitAll, horder]
    rfl
  | @cons root node roots nodes hp _ ih =>
    subst horder
    rw [List.foldlM_cons]
    rcases searchFrom_eq h hc hp with ⟨hcolour, hrun⟩ | ⟨hcolour, hmark, hrun⟩
    · rw [visitAll_of_finished hcolour, hrun]
      exact ih hc rfl
    · have hcomes : (s.enter root).ComesTo g [(root, g.parents node)] [] []
          ((g.visitAll ([] ++ [node]) s.order.toList (g.parents node)).map (· ++ [node])) :=
        (search_comesTo h (hc.enter h hp hmark (.nil _)) rfl rfl).finish h
      rw [visitAll_of_unvisited hcolour, hrun]
      generalize (g.visitAll ([] ++ [node]) s.order.toList (g.parents node)).map (· ++ [node]) =
        visited at hcomes
      cases visited with
      | error cycle =>
        rw [Search.ComesTo] at hcomes
        rw [hcomes]
        rfl
      | ok order' =>
        obtain ⟨s', hc', horder, hdone⟩ := hcomes
        rw [hdone, search]
        exact ih hc' horder.symm

theorem resolveOrder_eq_depthFirst (h : g.WellFormed) : g.resolveOrder = g.depthFirst := by
  have hroots : List.Forall₂ (fun root node => g.nodes[root]? = some node)
      (List.range g.nodes.size) g.nodes.toList := by
    rw [List.forall₂_iff_get]
    exact ⟨by simp, fun i _ _ => by simp⟩
  have hall := foldlM_searchFrom_eq h (consistent_start g) rfl hroots
  rw [← searchAll] at hall
  rw [resolveOrder, depthFirst]
  change _ = (g.visitAll [] [] g.nodes.toList).mapError _ at hall
  generalize g.visitAll [] [] g.nodes.toList = result at hall
  cases result with
  | error cycle =>
    rw [error_of_map hall]
  | ok order =>
    obtain ⟨s, hs, rfl⟩ := ok_of_map hall
    rw [hs]

/-- The search of a graph made by any edits is the recursive depth-first search over the nodes in
the order in which they were added, which visits what a node depends on in increasing order of
bytes: both list the nodes in the same order, or stop with the same path, which leads from the
first node that is met in progress back to it. -/
theorem resolveOrder_recursive (edits : List Edit) :
    (ofEdits edits).nodes.toList = (edits.filterMap Edit.node?).eraseDups ∧
    (∀ node, ((ofEdits edits).parents node).Pairwise fun x y =>
      x.toUTF8.toList < y.toUTF8.toList) ∧
    (ofEdits edits).resolveOrder = (ofEdits edits).depthFirst :=
  ⟨nodes_ofEdits edits,
    fun node => ((listed_ofEdits edits).parentsSorted node).imp Text.toUTF8_lt_iff.mpr,
    resolveOrder_eq_depthFirst (wellFormed_ofEdits edits)⟩

/-- The path of the recursion leads over `a`, and the cycle begins behind it. -/
example :
    let g := ofEdits [.node "a", .node "b", .node "c", .edge "a" "c", .edge "a" "b", .edge "b" "c",
      .edge "c" "b"]
    g.depthFirst = .error ⟨["b", "c", "b"]⟩ := by
  cbv

end QueryBuild.Graph

import QueryBuild.Proofs.Graph.SearchInvariant
/-!
# Build orders

Resolving the order of a graph made by edits looks nothing up in vain. It gives an order exactly
if no node depends on itself through others, and then the order lists every node once, each behind
all that it depends on.
-/

namespace QueryBuild.Graph

variable {g : Graph}

/-- Every node that one search has visited is visited in another one. -/
def Search.Extends (g : Graph) (s s' : Search) : Prop :=
  ∀ node, s.mark? g node ≠ some .unvisited → s'.mark? g node ≠ some .unvisited

theorem Search.extends_finish (h : g.WellFormed) {s : Search} (hs : s.visits.size = g.nodes.size)
    {position : Nat} {node : String} (hp : g.nodes[position]? = some node) :
    s.Extends g (s.finish position node) := by
  intro other hv
  rw [mark?_finish h s hs hp]
  split
  · simp
  · exact hv

theorem Search.extends_enter (h : g.WellFormed) {s : Search} (hs : s.visits.size = g.nodes.size)
    {position : Nat} {node : String} (hp : g.nodes[position]? = some node) :
    s.Extends g (s.enter position) := by
  intro other hv
  rw [mark?_enter h s hs hp]
  split
  · simp
  · exact hv

theorem Search.Extends.trans {s₁ s₂ s₃ : Search} (h : s₁.Extends g s₂) (h' : s₂.Extends g s₃) :
    s₁.Extends g s₃ :=
  fun node hv => h' node (h node hv)

theorem Search.Consistent.top {s : Search} {position : Nat} {dependencies : List String}
    {stack : List Frame} {nodes : List String}
    (hc : s.Consistent g ((position, dependencies) :: stack) nodes) :
    ∃ node below, nodes = node :: below ∧ g.nodes[position]? = some node := by
  cases hc.stacked with
  | cons held => exact ⟨_, _, rfl, held⟩

theorem Search.Consistent.next (h : g.WellFormed) {s : Search} {position : Nat}
    {dependency : String} {dependencies : List String} {stack : List Frame} {nodes : List String}
    (hc : s.Consistent g ((position, dependency :: dependencies) :: stack) nodes) :
    ∃ top q v, nodes.head? = some top ∧ g.DependsOn top dependency ∧
      g.index[dependency]? = some q ∧ g.nodes[q]? = some dependency ∧ s.visits[q]? = some v ∧
      s.mark? g dependency = some v := by
  cases hc.stacked with
  | @cons _ _ _ top _ below _ left _ _ _ =>
    have hdep : g.DependsOn top dependency := left dependency (by simp)
    obtain ⟨q, v, hi, hq, hv, hm⟩ := exists_mark h s hc.size (h.known _ _ hdep).2
    exact ⟨top, q, v, rfl, hdep, hi, hq, hv, hm⟩

/-- A search comes to an end with an empty stack or meets a cycle. -/
theorem search_spec (h : g.WellFormed) {s : Search} {stack : List Frame} {nodes : List String}
    (hc : s.Consistent g stack nodes) :
    (∃ s', search g s stack = .ok s' ∧ s'.Consistent g [] [] ∧ s.Extends g s') ∨
    ∃ path, search g s stack = .error (.cyclic ⟨path⟩) ∧ g.Closed path := by
  fun_induction search g s stack generalizing nodes with
  | case1 s =>
    cases hc.stacked
    exact Or.inl ⟨s, rfl, hc, fun _ hv => hv⟩
  | case2 s position rest hp =>
    obtain ⟨top, below, rfl, held⟩ := hc.top
    cases hp.symm.trans held
  | case3 s position rest node hp ih =>
    obtain ⟨top, below, rfl, held⟩ := hc.top
    cases hp.symm.trans held
    apply (ih (hc.finish h)).imp_left
    intro hcase
    rcases hcase with ⟨s', hrun, hc', hext⟩
    exact ⟨s', hrun, hc', (Search.extends_finish h hc.size hp).trans hext⟩
  | case4 s node dependency dependencies rest hi =>
    obtain ⟨_, _, _, _, _, hi', _⟩ := hc.next h
    cases hi.symm.trans hi'
  | case5 s node dependency dependencies rest position hi hv =>
    obtain ⟨_, _, _, _, _, hi', _, hv', _⟩ := hc.next h
    cases hi.symm.trans hi'
    cases hv.symm.trans hv'
  | case6 s node dependency dependencies rest position hi hv ih =>
    obtain ⟨_, _, _, _, _, hi', _, hv', hm⟩ := hc.next h
    cases hi.symm.trans hi'
    cases hv.symm.trans hv'
    exact ih (hc.skip hm)
  | case7 s node dependency dependencies rest position hi hv =>
    obtain ⟨top, _, _, htop, hdep, hi', hp, hv', hm⟩ := hc.next h
    cases hi.symm.trans hi'
    cases hv.symm.trans hv'
    have hmem : dependency ∈ nodes := (hc.active dependency).mpr hm
    obtain ⟨path, hclose, hclosed⟩ :=
      close_of_mem h hc.stacked.descend hc.distinct htop hdep hmem hp
    exact Or.inr ⟨path, by rw [hclose], hclosed⟩
  | case8 s node dependency dependencies rest position hi hv hf =>
    obtain ⟨_, _, _, _, _, hi', hp, _, _⟩ := hc.next h
    cases hi.symm.trans hi'
    simp [frame?, hp] at hf
  | case9 s node dependency dependencies rest position hi hv frame hf ih =>
    obtain ⟨_, _, _, _, _, hi', hp, hv', hm⟩ := hc.next h
    cases hi.symm.trans hi'
    cases hv.symm.trans hv'
    have hframe : frame = (position, g.parents dependency) := by simpa [frame?, hp] using hf.symm
    subst hframe
    apply (ih (hc.enter h hp hm hc.stacked.descend)).imp_left
    intro hcase
    rcases hcase with ⟨s', hrun, hc', hext⟩
    exact ⟨s', hrun, hc', (Search.extends_enter h hc.size hp).trans hext⟩

/-! ### The search over all nodes -/

theorem searchFrom_spec (h : g.WellFormed) {s : Search} (hc : s.Consistent g [] []) {root : Nat}
    {node : String} (hp : g.nodes[root]? = some node) :
    (∃ s', searchFrom g s root = .ok s' ∧ s'.Consistent g [] [] ∧ s.Extends g s' ∧
      s'.mark? g node ≠ some .unvisited) ∨
    ∃ path, searchFrom g s root = .error (.cyclic ⟨path⟩) ∧ g.Closed path := by
  have hi := (h.index_iff node root).mpr hp
  obtain ⟨position, v, hi', _, hv, hm⟩ := exists_mark h s hc.size
    ((h.contains_iff node).mpr (Array.mem_of_getElem? hp))
  cases hi.symm.trans hi'
  rw [searchFrom, hv]
  cases v with
  | unvisited =>
    have hframe : g.frame? root = some (root, g.parents node) := by simp [frame?, hp]
    simp only [hframe]
    apply (search_spec h (hc.enter h hp hm (.nil _))).imp_left
    intro hcase
    rcases hcase with ⟨s', hrun, hc', hext⟩
    refine ⟨s', hrun, hc', (Search.extends_enter h hc.size hp).trans hext, hext node ?_⟩
    rw [mark?_enter h s hc.size hp, if_pos rfl]
    simp
  | inProgress => exact absurd ((hc.active node).mpr hm) (by simp)
  | finished => exact Or.inl ⟨s, rfl, hc, fun _ hv => hv, by simp [hm]⟩

theorem foldlM_searchFrom_spec (h : g.WellFormed) {s : Search} (hc : s.Consistent g [] [])
    {roots : List Nat} (hroots : ∀ root ∈ roots, root < g.nodes.size) :
    (∃ s', roots.foldlM (searchFrom g) s = .ok s' ∧ s'.Consistent g [] [] ∧ s.Extends g s' ∧
      ∀ root ∈ roots, ∀ node, g.nodes[root]? = some node →
        s'.mark? g node ≠ some .unvisited) ∨
    ∃ path, roots.foldlM (searchFrom g) s = .error (.cyclic ⟨path⟩) ∧ g.Closed path := by
  induction roots generalizing s with
  | nil => exact Or.inl ⟨s, rfl, hc, fun _ hv => hv, by simp⟩
  | cons root roots ih =>
    have hlt : root < g.nodes.size := hroots root (by simp)
    have hp : g.nodes[root]? = some g.nodes[root] := Array.getElem?_eq_getElem hlt
    rw [List.foldlM_cons]
    rcases searchFrom_spec h hc hp with ⟨s₁, hrun, hc₁, hext, hroot⟩ | ⟨path, hrun, hclosed⟩
    · rw [hrun]
      apply (ih hc₁ fun r hr => hroots r (by simp [hr])).imp_left
      intro hcase
      rcases hcase with ⟨s₂, hrun₂, hc₂, hext₂, hall⟩
      refine ⟨s₂, hrun₂, hc₂, hext.trans hext₂, ?_⟩
      intro r hr node hnode
      rcases List.mem_cons.mp hr with rfl | hr
      · cases hp.symm.trans hnode
        exact hext₂ _ hroot
      · exact hall r hr node hnode
    · rw [hrun]
      exact Or.inr ⟨path, rfl, hclosed⟩

theorem consistent_start (g : Graph) :
    (⟨.replicate g.nodes.size .unvisited, #[]⟩ : Search).Consistent g [] [] := by
  have hmark (node : String) (v : Visit)
      (hv : (⟨.replicate g.nodes.size .unvisited, #[]⟩ : Search).mark? g node = some v) :
      v = .unvisited := by
    obtain ⟨position, -, hp⟩ := Option.bind_eq_some_iff.mp hv
    rw [Array.getElem?_replicate] at hp
    split at hp
    · exact (Option.some.inj hp).symm
    · cases hp
  refine ⟨by simp, ?_, by simp, ?_, ?_, by simp, .nil none⟩
  · intro node
    simp only [List.not_mem_nil, false_iff]
    intro hv
    cases hmark node _ hv
  · intro before node after heq
    simp at heq
  · intro node
    simp only [List.not_mem_nil, false_iff]
    intro hv
    cases hmark node _ hv

/-- The search over all nodes lists them in an order that respects the edges, or it meets a
cycle. -/
theorem searchAll_spec (h : g.WellFormed) :
    (∃ s, g.searchAll = .ok s ∧ s.order.toList.Nodup ∧
      (∀ node, node ∈ s.order.toList ↔ g.contains node = true) ∧ g.Respects s.order.toList) ∨
    ∃ path, g.searchAll = .error (.cyclic ⟨path⟩) ∧ g.Closed path := by
  refine (foldlM_searchFrom_spec h (consistent_start g)
    fun r hr => List.mem_range.mp hr).imp_left ?_
  intro hcase
  rcases hcase with ⟨s, hrun, hc, -, hall⟩
  refine ⟨s, hrun, hc.nodup, ?_, hc.respects⟩
  intro node
  constructor
  · intro hn
    obtain ⟨position, hi, -⟩ := Option.bind_eq_some_iff.mp ((hc.listed node).mp hn)
    exact (h.contains_iff node).mpr (Array.mem_of_getElem? ((h.index_iff _ _).mp hi))
  · intro hn
    obtain ⟨position, v, -, hp, -, hm⟩ := exists_mark h s hc.size hn
    have hlt := (Array.getElem?_eq_some_iff.mp hp).1
    have hvisited := hall position (List.mem_range.mpr hlt) node hp
    cases v with
    | unvisited => exact absurd hm hvisited
    | inProgress => exact absurd ((hc.active node).mpr hm) (by simp)
    | finished => exact (hc.listed node).mpr hm

/-! ### Orders and cycles -/

theorem transGen_of_isChain {related : String → String → Prop} {first last : String}
    {between : List String} (h : (first :: (between ++ [last])).IsChain related) :
    Relation.TransGen related first last := by
  have hlast : (between ++ [last]).getLast? = some last := by simp
  cases hrest : between ++ [last] with
  | nil => simp at hrest
  | cons next rest =>
    rw [hrest] at h hlast
    obtain ⟨hfirst, htail⟩ := List.isChain_cons_cons.mp h
    rw [List.getLast?_eq_some_getLast (List.cons_ne_nil next rest)] at hlast
    exact .head' hfirst
      (List.relationReflTransGen_of_exists_isChain_cons rest htail (Option.some.inj hlast))

theorem Closed.transGen {path : List String} (hc : g.Closed path) :
    ∃ node, Relation.TransGen g.DependsOn node node := by
  obtain ⟨node, between, rfl, -, hchain⟩ := hc
  exact ⟨node, transGen_of_isChain hchain⟩

/-- In an order that respects the edges a dependency stands strictly before its dependents. -/
theorem Respects.idxOf_lt {order : List String} (hr : g.Respects order)
    {dependent dependency : String} (hm : dependent ∈ order)
    (hd : g.DependsOn dependent dependency) :
    order.idxOf dependency < order.idxOf dependent := by
  obtain ⟨before, after, rfl, hnot⟩ := List.eq_append_cons_of_mem hm
  have hbefore := hr before dependent after rfl dependency hd
  rw [List.idxOf_append_of_mem hbefore, List.idxOf_append_of_notMem hnot, List.idxOf_cons_self]
  exact List.idxOf_lt_length_of_mem hbefore

theorem Respects.idxOf_lt_of_transGen {order : List String} (hr : g.Respects order)
    (hall : ∀ dependent dependency, g.DependsOn dependent dependency → dependent ∈ order)
    {dependent dependency : String} (hd : Relation.TransGen g.DependsOn dependent dependency) :
    order.idxOf dependency < order.idxOf dependent := by
  induction hd with
  | single hd => exact hr.idxOf_lt (hall _ _ hd) hd
  | tail _ hd ih => exact (hr.idxOf_lt (hall _ _ hd) hd).trans ih

/-- A graph whose nodes stand in an order that respects the edges has no cycle. -/
theorem Respects.acyclic {order : List String} (hr : g.Respects order)
    (hall : ∀ dependent dependency, g.DependsOn dependent dependency → dependent ∈ order) :
    g.Acyclic :=
  fun _ hcycle => lt_irrefl _ (hr.idxOf_lt_of_transGen hall hcycle)

/-- The order of a well-formed graph lists all its nodes and respects its edges; without an order
there is a cycle. -/
theorem resolveOrder_spec (h : g.WellFormed) :
    (∃ order, g.resolveOrder = .ok order ∧ order.Nodup ∧
      (∀ node, node ∈ order ↔ g.contains node = true) ∧ g.Respects order) ∨
    ∃ path, g.resolveOrder = .error ⟨path⟩ ∧ g.Closed path := by
  rcases searchAll_spec h with ⟨s, hrun, hspec⟩ | ⟨path, hrun, hclosed⟩
  · exact Or.inl ⟨s.order.toList, by rw [resolveOrder, hrun], hspec⟩
  · exact Or.inr ⟨path, by rw [resolveOrder, hrun], hclosed⟩

theorem WellFormed.of_resolveOrder (h : g.WellFormed) {order : List String}
    (hok : g.resolveOrder = .ok order) :
    order.Nodup ∧ (∀ node, node ∈ order ↔ g.contains node = true) ∧ g.Respects order := by
  rcases resolveOrder_spec h with ⟨order', hrun, hspec⟩ | ⟨path, hrun, -⟩
  · cases hrun.symm.trans hok
    exact hspec
  · cases hrun.symm.trans hok

/-- Resolving the order of a graph made by any edits looks nothing up in vain, gives an order
exactly if there is no cycle, and the order lists every node once, each dependency strictly before
its dependents. -/
theorem resolveOrder_ofEdits (edits : List Edit) :
    (ofEdits edits).searchAll ≠ .error .missing ∧
    ((∃ order, (ofEdits edits).resolveOrder = .ok order) ↔ (ofEdits edits).Acyclic) ∧
    ∀ order, (ofEdits edits).resolveOrder = .ok order →
      order.Nodup ∧ (∀ node, node ∈ order ↔ node ∈ (ofEdits edits).nodes) ∧
      ∀ dependent dependency, (ofEdits edits).DependsOn dependent dependency →
        order.idxOf dependency < order.idxOf dependent := by
  have h := wellFormed_ofEdits edits
  refine ⟨?_, ⟨?_, ?_⟩, ?_⟩
  · intro hmissing
    rcases searchAll_spec h with ⟨s, hrun, -⟩ | ⟨path, hrun, -⟩
    · cases hrun.symm.trans hmissing
    · cases hrun.symm.trans hmissing
  · intro hcase
    rcases hcase with ⟨order, hok⟩
    obtain ⟨-, hall, hrespects⟩ := h.of_resolveOrder hok
    exact hrespects.acyclic fun _ _ hd => (hall _).mpr (h.known _ _ hd).1
  · intro hacyclic
    rcases resolveOrder_spec h with ⟨order, hrun, -⟩ | ⟨path, -, hclosed⟩
    · exact ⟨order, hrun⟩
    · obtain ⟨node, hcycle⟩ := hclosed.transGen
      exact absurd hcycle (hacyclic node)
  · intro order hok
    obtain ⟨hnodup, hall, hrespects⟩ := h.of_resolveOrder hok
    refine ⟨hnodup, fun node => (hall node).trans (h.contains_iff node), ?_⟩
    intro dependent dependency hd
    exact hrespects.idxOf_lt ((hall _).mpr (h.known _ _ hd).1) hd

end QueryBuild.Graph

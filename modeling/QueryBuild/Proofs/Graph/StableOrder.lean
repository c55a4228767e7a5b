import QueryBuild.Proofs.Graph.EdgeOrder
/-!
# Build orders that stay

A search lists a node at once if all that it depends on is listed. So nodes that already stand behind
what they depend on are listed in the order in which they were found, and a node on which no other
one depends is listed where the search finds it, without a change to what is listed around it.
-/

namespace QueryBuild.Graph

open Relation

variable {g g' : Graph} {path order nodes names : List String} {node : String}

/-! ### Parts of a graph -/

/-- The edits that make a graph of some nodes, in their order, and of those edges of a graph that join
two of them. -/
def rebuild (g : Graph) (names : List String) : List Edit :=
  names.map .node ++ g.nodes.toList.flatMap fun node => (g.parents node).map (.edge node)

/-- A graph has some nodes, in their order, and those edges of another graph that join them. -/
structure IsPart (g part : Graph) (names : List String) : Prop where
  nodes : part.nodes.toList = names
  edges : ∀ dependent dependency, part.DependsOn dependent dependency ↔
    g.DependsOn dependent dependency ∧ dependent ∈ names ∧ dependency ∈ names

private def pairs (g : Graph) : List (String × String) :=
  g.nodes.toList.flatMap fun node => (g.parents node).map fun dependency => (node, dependency)

private theorem ofEdits_rebuild (g : Graph) (names : List String) :
    ofEdits (g.rebuild names) = ofEdges names g.pairs := by
  rw [ofEdges_eq_ofEdits, rebuild, pairs, List.map_flatMap]
  simp only [List.map_map]
  rfl

private theorem mem_pairs (h : g.WellFormed) (dependent dependency : String) :
    (dependent, dependency) ∈ g.pairs ↔ g.DependsOn dependent dependency := by
  rw [pairs, List.mem_flatMap]
  constructor
  · intro hcase
    rcases hcase with ⟨node, -, hpair⟩
    obtain ⟨other, hother, heq⟩ := List.mem_map.mp hpair
    cases heq
    exact hother
  · intro hd
    have hknown := (h.contains_iff dependent).mp (h.known _ _ hd).1
    exact ⟨dependent, Array.mem_toList_iff.mpr hknown, List.mem_map.mpr ⟨dependency, hd, rfl⟩⟩

theorem isPart_rebuild (h : g.WellFormed) (hnames : names.Nodup) :
    g.IsPart (ofEdits (g.rebuild names)) names where
  nodes := by rw [ofEdits_rebuild, nodes_ofEdges hnames]
  edges dependent dependency := by rw [ofEdits_rebuild, dependsOn_ofEdges, mem_pairs h]

/-! ### What the recursion lists -/

theorem visitAll_of_inProgress (hcolour : colour path order node = .inProgress) :
    g.visitAll path order (node :: nodes) = .error ⟨path.dropWhile (· != node) ++ [node]⟩ := by
  rw [visitAll]
  split <;> simp_all

theorem colour_of_mem (h : node ∈ order) : colour path order node = .finished := by
  rw [colour, if_pos h]

theorem colour_root (h : node ∉ order) : colour [] order node = .unvisited := by
  rw [colour, if_neg h, if_neg List.not_mem_nil]

theorem visitAll_of_listed (h : nodes ⊆ order) : g.visitAll path order nodes = .ok order := by
  induction nodes with
  | nil => rw [visitAll]
  | cons node nodes ih =>
    obtain ⟨hnode, hnodes⟩ := List.cons_subset.mp h
    rw [visitAll_of_finished (colour_of_mem hnode), ih hnodes]

theorem visitAll_of_ready (hnew : node ∉ order) (hready : g.parents node ⊆ order) :
    g.visitAll [] order (node :: nodes) = g.visitAll [] (order ++ [node]) nodes := by
  rw [visitAll_of_unvisited (colour_root hnew), visitAll_of_listed hready]
  rfl

theorem visitAll_append (g : Graph) (path order nodes nodes' : List String) :
    g.visitAll path order (nodes ++ nodes') =
      (g.visitAll path order nodes).bind fun order => g.visitAll path order nodes' := by
  induction nodes generalizing order with
  | nil => rw [visitAll]; rfl
  | cons node nodes ih =>
    rw [List.cons_append]
    cases hcolour : colour path order node with
    | finished => rw [visitAll_of_finished hcolour, visitAll_of_finished hcolour, ih]
    | inProgress =>
      rw [visitAll_of_inProgress hcolour, visitAll_of_inProgress hcolour]
      rfl
    | unvisited =>
      rw [visitAll_of_unvisited hcolour, visitAll_of_unvisited hcolour]
      cases g.visitAll (path ++ [node]) order (g.parents node) with
      | error cycle => rfl
      | ok order' => exact ih (order' ++ [node])

/-- What is visited is listed in the end, nothing is taken from the list, and what the listed nodes
depend on stays listed. -/
theorem visitAll_ok {order' : List String} (h : g.visitAll path order nodes = .ok order') :
    order ⊆ order' ∧ nodes ⊆ order' ∧
      ((∀ node ∈ order, g.parents node ⊆ order) → ∀ node ∈ order', g.parents node ⊆ order') := by
  fun_induction visitAll g path order nodes generalizing order' with
  | case1 path order =>
    cases h
    exact ⟨List.Subset.refl _, List.nil_subset _, id⟩
  | case2 path order node nodes hcolour ih =>
    obtain ⟨hkept, hvisited, hclosed⟩ := ih h
    have hlisted : node ∈ order := by
      by_contra hnot
      rw [colour, if_neg hnot] at hcolour
      split at hcolour <;> cases hcolour
    exact ⟨hkept, List.cons_subset.mpr ⟨hkept hlisted, hvisited⟩, hclosed⟩
  | case3 path order node nodes hcolour => cases h
  | case4 path order node nodes hcolour cycle hcycle ih => cases h
  | case5 path order node nodes hcolour order₁ hinner ih ih' =>
    obtain ⟨hkept₁, hvisited₁, hclosed₁⟩ := ih hinner
    obtain ⟨hkept, hvisited, hclosed⟩ := ih' h
    obtain ⟨hkept₂, hnode⟩ := List.append_subset.mp hkept
    refine ⟨List.Subset.trans hkept₁ hkept₂,
      List.cons_subset.mpr ⟨hnode (List.mem_singleton_self _), hvisited⟩, ?_⟩
    intro hbefore
    apply hclosed
    intro other hother
    apply List.Subset.trans _ (List.subset_append_left _ _)
    rcases List.mem_append.mp hother with hother | hother
    · exact hclosed₁ hbefore other hother
    · rw [List.mem_singleton.mp hother]
      exact hvisited₁

/-! ### Orders that are fixed -/

/-- Different nodes of which each stands behind what it depends on are listed as they stand. -/
theorem visitAll_of_respects (hnodup : (order ++ nodes).Nodup)
    (hrespects : g.Respects (order ++ nodes)) :
    g.visitAll [] order nodes = .ok (order ++ nodes) := by
  induction nodes generalizing order with
  | nil => rw [visitAll, List.append_nil]
  | cons node nodes ih =>
    have hnew : node ∉ order := fun hmem =>
      (List.nodup_append.mp hnodup).2.2 node hmem node List.mem_cons_self rfl
    have hmoved : order ++ node :: nodes = order ++ [node] ++ nodes := List.append_cons ..
    rw [visitAll_of_ready hnew (hrespects order node nodes rfl)]
    rw [hmoved] at hnodup hrespects ⊢
    exact ih hnodup hrespects

private theorem mem_of_idxOf_lt {front behind : List String} {other : String}
    (hnodup : (front ++ node :: behind).Nodup)
    (hlt : (front ++ node :: behind).idxOf other < (front ++ node :: behind).idxOf node) :
    other ∈ front := by
  have hnot : node ∉ front := fun hmem =>
    (List.nodup_append.mp hnodup).2.2 node hmem node List.mem_cons_self rfl
  by_contra hother
  rw [List.idxOf_append_of_notMem hnot, List.idxOf_append_of_notMem hother,
    List.idxOf_cons_self] at hlt
  omega

theorem respects_of_idxOf_lt (hnodup : order.Nodup)
    (h : ∀ dependent dependency, g.DependsOn dependent dependency →
      order.idxOf dependency < order.idxOf dependent) : g.Respects order := by
  rintro front node behind rfl dependency hd
  exact mem_of_idxOf_lt hnodup (h node dependency hd)

theorem resolveOrder_of_respects (h : g.WellFormed) (hrespects : g.Respects g.nodes.toList) :
    g.resolveOrder = .ok g.nodes.toList := by
  rw [resolveOrder_eq_depthFirst h, depthFirst]
  exact visitAll_of_respects h.nodup_nodes hrespects

/-- If all nodes were found behind what they depend on, they are built as they were found. So an
order that a graph was given is not changed any more: whichever edits make a graph with the same
edges and with its nodes in this order, and there are such edits, it is given the same order. -/
theorem resolveOrder_fixed (edits : List Edit) :
    let g := ofEdits edits
    ((∀ dependent dependency, g.DependsOn dependent dependency →
        g.nodes.toList.idxOf dependency < g.nodes.toList.idxOf dependent) →
      g.resolveOrder = .ok g.nodes.toList) ∧
    (g.Acyclic → ∃ order, g.resolveOrder = .ok order ∧
      ((ofEdits (g.rebuild order)).nodes.toList = order ∧
        ∀ dependent dependency, (ofEdits (g.rebuild order)).DependsOn dependent dependency ↔
          g.DependsOn dependent dependency) ∧
      ∀ edits', (ofEdits edits').nodes.toList = order →
        (∀ dependent dependency, (ofEdits edits').DependsOn dependent dependency ↔
          g.DependsOn dependent dependency) →
        (ofEdits edits').resolveOrder = .ok order) := by
  have h := wellFormed_ofEdits edits
  refine ⟨fun hbehind => ?_, fun hacyclic => ?_⟩
  · exact resolveOrder_of_respects h (respects_of_idxOf_lt h.nodup_nodes hbehind)
  rcases resolveOrder_spec h with ⟨order, hresolve, hnodup, hall, hrespects⟩ | ⟨_, -, hclosed⟩
  case inr =>
    obtain ⟨node, hcycle⟩ := hclosed.transGen
    exact absurd hcycle (hacyclic node)
  have hpart := isPart_rebuild h hnodup
  refine ⟨order, hresolve, ⟨hpart.nodes, fun dependent dependency => ?_⟩,
    fun edits' hnodes hedges => ?_⟩
  · rw [hpart.edges, and_iff_left_iff_imp]
    intro hd
    exact ⟨(hall _).mpr (h.known _ _ hd).1, (hall _).mpr (h.known _ _ hd).2⟩
  · have hsame : (ofEdits edits').Respects (ofEdits edits').nodes.toList := by
      rw [hnodes]
      intro before node after hsplit dependency hd
      exact hrespects before node after hsplit dependency ((hedges _ _).mp hd)
    rw [resolveOrder_of_respects (wellFormed_ofEdits edits') hsame, hnodes]

/-- The order of a graph whose nodes were found in another one. -/
example :
    let g := ofEdits [.node "c", .node "a", .node "b", .edge "c" "b", .edge "b" "a"]
    g.resolveOrder = .ok ["a", "b", "c"] ∧
      (ofEdits (g.rebuild ["a", "b", "c"])).resolveOrder = .ok ["a", "b", "c"] := by
  cbv

/-! ### A node on which no other one depends -/

theorem colour_filter {other : String} (hne : other ≠ node) :
    colour path (order.filter (· != node)) other = colour path order other := by
  have hmem : other ∈ order.filter (· != node) ↔ other ∈ order := by
    rw [List.mem_filter, and_iff_left (bne_iff_ne.mpr hne)]
  simp only [colour, hmem]

/-- As long as a search does not start at a node on which no other one depends, it does the same
without it. -/
theorem visitAll_without (hparents : ∀ other, other ≠ node → g'.parents other = g.parents other)
    (hleaf : ∀ other, ∀ dependency ∈ g.parents other, dependency ≠ node)
    (hnodes : ∀ other ∈ nodes, other ≠ node) :
    g'.visitAll path (order.filter (· != node)) nodes =
      (g.visitAll path order nodes).map (·.filter (· != node)) := by
  fun_induction visitAll g path order nodes with
  | case1 path order =>
    rw [visitAll]
    rfl
  | case2 path order other nodes hcolour ih =>
    obtain ⟨hne, hrest⟩ := List.forall_mem_cons.mp hnodes
    rw [visitAll_of_finished ((colour_filter hne).trans hcolour), ih hrest]
  | case3 path order other nodes hcolour =>
    have hne := (List.forall_mem_cons.mp hnodes).1
    rw [visitAll_of_inProgress ((colour_filter hne).trans hcolour)]
    rfl
  | case4 path order other nodes hcolour cycle hcycle ih =>
    have hne := (List.forall_mem_cons.mp hnodes).1
    rw [visitAll_of_unvisited ((colour_filter hne).trans hcolour),
      hparents other hne, ih (hleaf other), hcycle]
    rfl
  | case5 path order other nodes hcolour order' horder ih ih' =>
    obtain ⟨hne, hrest⟩ := List.forall_mem_cons.mp hnodes
    have hconcat : (order' ++ [other]).filter (· != node) =
        order'.filter (· != node) ++ [other] := by
      simp [hne]
    rw [visitAll_of_unvisited ((colour_filter hne).trans hcolour),
      hparents other hne, ih (hleaf other), horder, ← ih' hrest, hconcat]
    rfl

theorem exists_visitAll_of_ready (hready : g.parents node ⊆ order) :
    ∃ order', order'.filter (· != node) = order.filter (· != node) ∧
      g.visitAll [] order (node :: nodes) = g.visitAll [] order' nodes := by
  by_cases hmem : node ∈ order
  · exact ⟨order, rfl, visitAll_of_finished (colour_of_mem hmem)⟩
  · exact ⟨order ++ [node], by simp, visitAll_of_ready hmem hready⟩

theorem mem_of_transGen (hclosed : ∀ node ∈ order, g.parents node ⊆ order) {first last : String}
    (hfirst : first ∈ order) (hpath : TransGen g.DependsOn first last) : last ∈ order := by
  induction hpath with
  | single hd => exact hclosed first hfirst hd
  | tail _ hd ih => exact hclosed _ ih hd

/-- Without a node that is ready when it is found, and on which no other node depends, a search
gives the same order or cycle. -/
theorem visitAll_without_consumer {front behind : List String}
    (hparents : ∀ other, other ≠ node → g'.parents other = g.parents other)
    (hleaf : ∀ other, ∀ dependency ∈ g.parents other, dependency ≠ node)
    (hnodup : (front ++ node :: behind).Nodup)
    (hready : ∀ dependency ∈ g.parents node, ∃ earlier ∈ front,
      earlier = dependency ∨ TransGen g.DependsOn earlier dependency) :
    g'.visitAll [] [] (front ++ behind) =
      (g.visitAll [] [] (front ++ node :: behind)).map (·.filter (· != node)) := by
  obtain ⟨-, hbehind, happart⟩ := List.nodup_append.mp hnodup
  have hfront : ∀ other ∈ front, other ≠ node :=
    fun other hmem => happart other hmem node List.mem_cons_self
  have hback : ∀ other ∈ behind, other ≠ node := by
    rintro other hmem rfl
    exact (List.nodup_cons.mp hbehind).1 hmem
  have hsame : g'.visitAll [] (List.filter (· != node) []) front =
      (g.visitAll [] [] front).map (·.filter (· != node)) :=
    visitAll_without hparents hleaf hfront
  rw [List.filter_nil] at hsame
  rw [visitAll_append, visitAll_append, hsame]
  cases hvisit : g.visitAll [] [] front with
  | error cycle => rfl
  | ok order =>
    -- what is listed in front of the node is closed under dependencies, so the node is ready
    obtain ⟨-, hvisited, hclosed⟩ := visitAll_ok hvisit
    have hall : ∀ other ∈ order, g.parents other ⊆ order := hclosed (by simp)
    have hlisted : g.parents node ⊆ order := by
      intro dependency hd
      obtain ⟨earlier, hearlier, rfl | hpath⟩ := hready dependency hd
      · exact hvisited hearlier
      · exact mem_of_transGen hall (hvisited hearlier) hpath
    obtain ⟨order', hfilter, hnext⟩ : ∃ order',
        order'.filter (· != node) = order.filter (· != node) ∧
          g.visitAll [] order (node :: behind) = g.visitAll [] order' behind :=
      exists_visitAll_of_ready hlisted
    change g'.visitAll [] (order.filter (· != node)) behind =
      (g.visitAll [] order (node :: behind)).map _
    rw [hnext, ← hfilter]
    exact visitAll_without hparents hleaf hback

/-- A part of a graph without a node on which no other one depends has the other lists of
dependencies. -/
theorem IsPart.parents (hg : g.WellFormed) (hlisted : g.Listed) (hlisted' : g'.Listed)
    (hleaf : ∀ other, ∀ dependency ∈ g.parents other, dependency ≠ node)
    (hpart : g.IsPart g' (g.nodes.toList.erase node)) {other : String} (hne : other ≠ node) :
    g'.parents other = g.parents other := by
  apply eq_of_sorted (hlisted'.parentsSorted other) (hlisted.parentsSorted other)
  intro dependency
  refine (hpart.edges other dependency).trans (and_iff_left_of_imp fun hd => ?_)
  have hkept : ∀ name, g.contains name = true → name ≠ node →
      name ∈ g.nodes.toList.erase node := fun name hname hother =>
    (List.mem_erase_of_ne hother).mpr (Array.mem_toList_iff.mpr ((hg.contains_iff name).mp hname))
  obtain ⟨hdependent, hdependency⟩ := hg.known _ _ hd
  exact ⟨hkept _ hdependent hne, hkept _ hdependency (hleaf other dependency hd)⟩

/-- A node on which no other one depends changes nothing for the others, if each of its dependencies
is in front of it when the nodes are found, or is needed, directly or through others, by one that is.
Whichever edits make the graph without this node and its edges, and there are such edits, both
graphs end with the same cycle, or the one order is the other one without the node. -/
theorem resolveOrder_without_consumer (edits : List Edit) {node : String}
    (hnode : node ∈ (ofEdits edits).nodes)
    (hleaf : ∀ dependent, ¬ (ofEdits edits).DependsOn dependent node)
    (hready : ∀ dependency, (ofEdits edits).DependsOn node dependency →
      ∃ earlier, (ofEdits edits).nodes.toList.idxOf earlier <
          (ofEdits edits).nodes.toList.idxOf node ∧
        (earlier = dependency ∨ TransGen (ofEdits edits).DependsOn earlier dependency)) :
    let g := ofEdits edits
    let others := g.nodes.toList.erase node
    g.IsPart (ofEdits (g.rebuild others)) others ∧
    ∀ edits', g.IsPart (ofEdits edits') others →
      (∃ cycle, g.resolveOrder = .error cycle ∧ (ofEdits edits').resolveOrder = .error cycle) ∨
      ∃ order, g.resolveOrder = .ok order ∧
        (ofEdits edits').resolveOrder = .ok (order.erase node) := by
  intro g others
  have h := wellFormed_ofEdits edits
  refine ⟨isPart_rebuild h (h.nodup_nodes.erase node), fun edits' hpart => ?_⟩
  have hnone : ∀ other, ∀ dependency ∈ g.parents other, dependency ≠ node := by
    rintro other dependency hd rfl
    exact hleaf other hd
  have hparents : ∀ other, other ≠ node → (ofEdits edits').parents other = g.parents other :=
    fun other hne => hpart.parents h (listed_ofEdits edits) (listed_ofEdits edits') hnone hne
  have hnodup := h.nodup_nodes
  obtain ⟨front, behind, hsplit, hfront⟩ :=
    List.eq_append_cons_of_mem (Array.mem_toList_iff.mpr hnode)
  have hothers : (ofEdits edits').nodes.toList = front ++ behind := by
    rw [hpart.nodes]
    change (ofEdits edits).nodes.toList.erase node = _
    rw [hsplit, List.erase_append_right _ hfront, List.erase_cons_head]
  rw [hsplit] at hready hnodup
  have hsame : (ofEdits edits').resolveOrder = g.resolveOrder.map (·.filter (· != node)) := by
    rw [resolveOrder_eq_depthFirst h, resolveOrder_eq_depthFirst (wellFormed_ofEdits edits'),
      depthFirst, depthFirst, hothers, hsplit]
    apply visitAll_without_consumer hparents hnone hnodup
    intro dependency hd
    obtain ⟨earlier, hearlier, hneeds⟩ := hready dependency hd
    exact ⟨earlier, mem_of_idxOf_lt hnodup hearlier, hneeds⟩
  cases hresolve : g.resolveOrder with
  | error cycle => exact Or.inl ⟨cycle, rfl, by rw [hsame, hresolve]; rfl⟩
  | ok order =>
    have horder := (h.of_resolveOrder hresolve).1
    refine Or.inr ⟨order, rfl, ?_⟩
    rw [hsame, hresolve, horder.erase_eq_filter]
    rfl

namespace Sample

/-- The second of four nodes is needed by none, and one that it needs is found behind it. -/
def audited : List Edit :=
  [.node "b", .node "x", .node "c", .node "a",
    .edge "b" "a", .edge "a" "c", .edge "x" "b", .edge "x" "c"]

theorem nodes_audited : (ofEdits audited).nodes = #["b", "x", "c", "a"] := by
  cbv

theorem leaf_audited (dependent : String) : ¬ (ofEdits audited).DependsOn dependent "x" := by
  have hnone : (ofEdits audited).children "x" = [] := by cbv
  rw [← (wellFormed_ofEdits audited).mirrored, hnone]
  exact List.not_mem_nil

theorem ready_audited (dependency : String) (hd : (ofEdits audited).DependsOn "x" dependency) :
    "b" = dependency ∨ TransGen (ofEdits audited).DependsOn "b" dependency := by
  have hx : (ofEdits audited).parents "x" = ["b", "c"] := by cbv
  have hb : (ofEdits audited).parents "b" = ["a"] := by cbv
  have ha : (ofEdits audited).parents "a" = ["c"] := by cbv
  rw [DependsOn, hx, List.mem_cons, List.mem_singleton] at hd
  rcases hd with rfl | rfl
  · exact Or.inl rfl
  · have hfirst : (ofEdits audited).DependsOn "b" "a" := by simp [DependsOn, hb]
    have hsecond : (ofEdits audited).DependsOn "a" "c" := by simp [DependsOn, ha]
    exact Or.inr (.tail (.single hfirst) hsecond)

end Sample

/-- The node `x` is left out, although one that it needs is found behind it. -/
theorem order_without_consumer :
    let g := ofEdits Sample.audited
    "x" ∈ g.nodes ∧ (∀ dependent, ¬ g.DependsOn dependent "x") ∧
      (∀ dependency, g.DependsOn "x" dependency →
        ∃ earlier, g.nodes.toList.idxOf earlier < g.nodes.toList.idxOf "x" ∧
          (earlier = dependency ∨ TransGen g.DependsOn earlier dependency)) ∧
      g.resolveOrder = .ok ["c", "a", "b", "x"] ∧
      (ofEdits (g.rebuild ["b", "c", "a"])).resolveOrder = .ok ["c", "a", "b"] := by
  have hnodes := Sample.nodes_audited
  have hmem : "x" ∈ (ofEdits Sample.audited).nodes := by simp [hnodes]
  have hready : ∀ dependency, (ofEdits Sample.audited).DependsOn "x" dependency →
      ∃ earlier, (ofEdits Sample.audited).nodes.toList.idxOf earlier <
          (ofEdits Sample.audited).nodes.toList.idxOf "x" ∧
        (earlier = dependency ∨ TransGen (ofEdits Sample.audited).DependsOn earlier dependency) :=
    fun dependency hd => ⟨"b", by rw [hnodes]; decide, Sample.ready_audited dependency hd⟩
  have hresolve : (ofEdits Sample.audited).resolveOrder = .ok ["c", "a", "b", "x"] := by cbv
  obtain ⟨hpart, hsame⟩ :=
    resolveOrder_without_consumer Sample.audited hmem Sample.leaf_audited hready
  have hothers : (ofEdits Sample.audited).nodes.toList.erase "x" = ["b", "c", "a"] := by
    rw [hnodes]
    decide
  rw [hothers] at hpart hsame
  refine ⟨hmem, Sample.leaf_audited, hready, hresolve, ?_⟩
  rcases hsame _ hpart with ⟨cycle, hcycle, -⟩ | ⟨order, horder, hrest⟩
  · cases hresolve.symm.trans hcycle
  · cases hresolve.symm.trans horder
    exact hrest

end QueryBuild.Graph

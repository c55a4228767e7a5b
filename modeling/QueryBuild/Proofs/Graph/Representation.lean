import Mathlib.Data.Set.Card
import QueryBuild.Proofs.Graph.Edges
import QueryBuild.Proofs.Graph.Insertion
import QueryBuild.Proofs.Text.Bytes
/-!
# How a graph is stored

A graph keeps its nodes, their positions, and every edge twice. After any edits these tables tell
the same story: a pair of names is recorded in both directions exactly if its edge was asked for
when both ends were known, the lists are sorted and no list belongs to an unknown node. So the
number of edges is the number of such pairs, and an edit is accepted exactly if it can be seen
afterwards.
-/

namespace QueryBuild

namespace Graph

/-- Whether an edit is accepted: a node has to be new, and so has an edge, whose ends have to be
known. -/
def accepts (g : Graph) : Edit → Bool
  | .node name => !g.contains name
  | .edge dependent dependency => g.canAddEdge dependent dependency

/-- Makes one edit with searches in the sorted lists; tells whether it was accepted, and the graph
after it. -/
def perform (g : Graph) : Edit → Bool × Graph
  | .node name =>
    if g.contains name then (false, g)
    else
      (true, { g with nodes := g.nodes.push name, index := g.index.insert name g.nodes.size })
  | .edge dependent dependency =>
    if !g.contains dependent || !g.contains dependency then (false, g)
    else
      let dependencies := g.parents dependent
      match Names.search dependency dependencies with
      | .ok _ => (false, g)
      | .error place =>
        (true, { g with
          parentLists := g.parentLists.insert dependent
            (dependencies.take place ++ dependency :: dependencies.drop place)
          childLists := g.childLists.insert dependency
            (Names.insertFound dependent (g.children dependency)) })

/-- An edge was asked for when both of its ends were known. -/
def Asked (edits : List Edit) (dependent dependency : String) : Prop :=
  ∃ before after, edits = before ++ .edge dependent dependency :: after ∧
    (ofEdits before).contains dependent = true ∧ (ofEdits before).contains dependency = true

/-- The node that an edit adds. -/
def Edit.node? : Edit → Option String
  | .node name => some name
  | .edge _ _ => none

/-- Nothing that can be asked about two graphs tells them apart. -/
structure Alike (g g' : Graph) : Prop where
  nodes : g'.nodes = g.nodes
  parents : ∀ node, g'.parents node = g.parents node
  children : ∀ node, g'.children node = g.children node
  edgeCount : g'.edgeCount = g.edgeCount

/-- The total length of the lists in a table. -/
def totalLength (table : Std.HashMap String (List String)) : Nat :=
  (table.toList.map fun entry => entry.2.length).sum

/-- The lists of a graph are sorted and belong to known nodes. -/
structure Listed (g : Graph) : Prop where
  parentsSorted : ∀ node, (g.parents node).Pairwise (· < ·)
  childrenSorted : ∀ node, (g.children node).Pairwise (· < ·)
  parentsKnown : ∀ node ∈ g.parentLists, g.contains node = true
  childrenKnown : ∀ node ∈ g.childLists, g.contains node = true

/-! ### Lists -/

theorem listed_empty : empty.Listed where
  parentsSorted := by simp [parents, empty]
  childrenSorted := by simp [children, empty]
  parentsKnown := by simp [empty]
  childrenKnown := by simp [empty]

theorem Listed.addNode {g : Graph} (h : g.Listed) (name : String) : (g.addNode name).Listed where
  parentsSorted node := by simpa using h.parentsSorted node
  childrenSorted node := by simpa using h.childrenSorted node
  parentsKnown node hnode := by
    have hlists : (g.addNode name).parentLists = g.parentLists := by
      rw [Graph.addNode]
      split <;> rfl
    exact (contains_addNode g name node).mpr (Or.inr (h.parentsKnown node (hlists ▸ hnode)))
  childrenKnown node hnode := by
    have hlists : (g.addNode name).childLists = g.childLists := by
      rw [Graph.addNode]
      split <;> rfl
    exact (contains_addNode g name node).mpr (Or.inr (h.childrenKnown node (hlists ▸ hnode)))

theorem Listed.addEdge {g : Graph} (h : g.Listed) (a b : String) : (g.addEdge a b).Listed := by
  rw [Graph.addEdge]
  split
  · rename_i hcan
    simp only [canAddEdge, Bool.and_eq_true] at hcan
    obtain ⟨⟨ha, hb⟩, -⟩ := hcan
    refine ⟨fun node => ?_, fun node => ?_, fun node hnode => ?_, fun node hnode => ?_⟩
    · rw [parents, Std.HashMap.getD_insert]
      split
      · exact Names.pairwise_insert b (h.parentsSorted a)
      · exact h.parentsSorted node
    · rw [children, Std.HashMap.getD_insert]
      split
      · exact Names.pairwise_insert a (h.childrenSorted b)
      · exact h.childrenSorted node
    · rcases Std.HashMap.mem_insert.mp hnode with heq | hnode
      · exact beq_iff_eq.mp heq ▸ ha
      · exact h.parentsKnown node hnode
    · rcases Std.HashMap.mem_insert.mp hnode with heq | hnode
      · exact beq_iff_eq.mp heq ▸ hb
      · exact h.childrenKnown node hnode
  · exact h

theorem Listed.apply {g : Graph} (h : g.Listed) (edit : Edit) : (g.apply edit).Listed := by
  cases edit with
  | node name => exact h.addNode name
  | edge dependent dependency => exact h.addEdge dependent dependency

theorem ofEdits_concat (edits : List Edit) (edit : Edit) :
    ofEdits (edits ++ [edit]) = (ofEdits edits).apply edit := by
  rw [ofEdits, List.foldl_append]
  rfl

private theorem eraseDups_concat (names : List String) (name : String) :
    (names ++ [name]).eraseDups =
      if name ∈ names then names.eraseDups else names.eraseDups ++ [name] := by
  rw [List.eraseDups_append, List.removeAll]
  by_cases hmem : name ∈ names <;> simp [hmem, List.eraseDups_cons]

theorem nodes_ofEdits (edits : List Edit) :
    (ofEdits edits).nodes.toList = (edits.filterMap Edit.node?).eraseDups := by
  induction edits using List.reverseRecOn with
  | nil => rfl
  | append_singleton edits edit ih =>
    rw [ofEdits_concat, List.filterMap_append]
    cases edit with
    | node name =>
      have hmem := (wellFormed_ofEdits edits).contains_iff name
      rw [← Array.mem_toList_iff, ih, List.mem_eraseDups] at hmem
      change _ = (edits.filterMap Edit.node? ++ [name]).eraseDups
      rw [eraseDups_concat, ← ih, Graph.apply, Graph.addNode]
      by_cases hknown : (ofEdits edits).contains name = true
      · rw [if_pos hknown, if_pos (hmem.mp hknown)]
      · rw [if_neg hknown, if_neg (mt hmem.mpr hknown), Array.toList_push]
    | edge dependent dependency =>
      change ((ofEdits edits).addEdge dependent dependency).nodes.toList =
        (edits.filterMap Edit.node? ++ []).eraseDups
      rw [nodes_addEdge, List.append_nil, ih]

theorem eraseDups_of_nodup {names : List String} (h : names.Nodup) : names.eraseDups = names := by
  induction names with
  | nil => rfl
  | cons name names ih =>
    obtain ⟨hnew, hnodup⟩ := List.nodup_cons.mp h
    have hothers : names.filter (fun other => !other == name) = names := by
      rw [List.filter_eq_self]
      intro other hother
      have hne : other ≠ name := fun heq => hnew (heq ▸ hother)
      simpa using hne
    rw [List.eraseDups_cons, hothers, ih hnodup]

theorem nodes_ofEdges {names : List String} (h : names.Nodup) (edges : List (String × String)) :
    (ofEdges names edges).nodes.toList = names := by
  have hnodes : (names.map Edit.node).filterMap Edit.node? = names := by
    rw [List.filterMap_map]
    exact List.filterMap_some
  have hedges : (edges.map fun edge => Edit.edge edge.1 edge.2).filterMap Edit.node? = [] := by
    rw [List.filterMap_map]
    exact List.filterMap_eq_nil_iff.mpr fun _ _ => rfl
  rw [ofEdges_eq_ofEdits, nodes_ofEdits, List.filterMap_append, hnodes, hedges, List.append_nil,
    eraseDups_of_nodup h]

/-- The lists of every graph that edits can make are sorted and belong to known nodes. -/
theorem listed_ofEdits (edits : List Edit) : (ofEdits edits).Listed := by
  induction edits using List.reverseRecOn with
  | nil => exact listed_empty
  | append_singleton edits edit ih =>
    rw [ofEdits_concat]
    exact ih.apply edit

/-- To search the lists of a graph makes no difference, as they are sorted. -/
theorem Listed.perform {g : Graph} (h : g.Listed) (edit : Edit) :
    g.perform edit = (g.accepts edit, g.apply edit) := by
  cases edit with
  | node name =>
    rw [Graph.perform, accepts, Graph.apply, Graph.addNode]
    split
    · rename_i hknown
      rw [hknown]
      rfl
    · rename_i hnew
      rw [Bool.not_eq_true] at hnew
      rw [hnew]
      rfl
  | edge dependent dependency =>
    have hfound := Names.search_eq_ok_iff dependency (h.parentsSorted dependent)
    have hparents := Names.insertFound_eq dependency (h.parentsSorted dependent)
    have hchildren := Names.insertFound_eq dependent (h.childrenSorted dependency)
    rw [Graph.perform, accepts, Graph.apply, Graph.addEdge, canAddEdge]
    by_cases hknown : (g.contains dependent && g.contains dependency) = true
    · have hboth : ¬ (!g.contains dependent || !g.contains dependency) = true := by
        simpa using hknown
      rw [if_neg hboth, hknown, Bool.true_and]
      cases hsearch : Names.search dependency (g.parents dependent) with
      | ok place =>
        have hmem := List.contains_iff_mem.mpr (hfound.mp ⟨place, hsearch⟩)
        simp only [hsearch, hmem]
        rfl
      | error place =>
        have hnot : (g.parents dependent).contains dependency = false := by
          rw [← Bool.not_eq_true, List.contains_iff_mem, ← hfound]
          simp [hsearch]
        rw [Names.insertFound, hsearch] at hparents
        simp only [hsearch, hnot, hparents, hchildren]
        rfl
    · have hnone : (!g.contains dependent || !g.contains dependency) = true := by
        simpa [imp_iff_not_or] using hknown
      rw [if_pos hnone, Bool.eq_false_iff.mpr hknown]
      rfl

/-! ### Edges -/

theorem dependsOn_apply (g : Graph) (edit : Edit) (dependent dependency : String) :
    (g.apply edit).DependsOn dependent dependency ↔ g.DependsOn dependent dependency ∨
      (edit = .edge dependent dependency ∧ g.contains dependent = true ∧
        g.contains dependency = true) := by
  cases edit with
  | node name => simp [Graph.apply, DependsOn]
  | edge a b =>
    rw [Graph.apply, dependsOn_addEdge, Edit.edge.injEq]
    constructor
    · intro hcase
      rcases hcase with hd | ⟨rfl, rfl, hknown⟩
      · exact Or.inl hd
      · exact Or.inr ⟨⟨rfl, rfl⟩, hknown⟩
    · intro hcase
      rcases hcase with hd | ⟨⟨rfl, rfl⟩, hknown⟩
      · exact Or.inl hd
      · exact Or.inr ⟨rfl, rfl, hknown⟩

theorem asked_concat (edits : List Edit) (edit : Edit) (dependent dependency : String) :
    Asked (edits ++ [edit]) dependent dependency ↔ Asked edits dependent dependency ∨
      (edit = .edge dependent dependency ∧ (ofEdits edits).contains dependent = true ∧
        (ofEdits edits).contains dependency = true) := by
  constructor
  · intro hcase
    rcases hcase with ⟨before, after, hsplit, hknown⟩
    rcases List.eq_nil_or_concat after with rfl | ⟨middle, last, rfl⟩
    · obtain ⟨rfl, hlast⟩ := List.append_inj' hsplit rfl
      exact Or.inr ⟨(List.cons.inj hlast).1, hknown⟩
    · rw [List.concat_eq_append, ← List.cons_append, ← List.append_assoc] at hsplit
      obtain ⟨hfront, -⟩ := List.append_inj' hsplit rfl
      exact Or.inl ⟨before, middle, hfront, hknown⟩
  · intro hcase
    rcases hcase with ⟨before, after, rfl, hknown⟩ | ⟨rfl, hknown⟩
    · exact ⟨before, after ++ [edit], by simp, hknown⟩
    · exact ⟨edits, [], rfl, hknown⟩

/-- The edges are those that were asked for while their ends were known. -/
theorem dependsOn_ofEdits (edits : List Edit) (dependent dependency : String) :
    (ofEdits edits).DependsOn dependent dependency ↔ Asked edits dependent dependency := by
  induction edits using List.reverseRecOn with
  | nil => simp [ofEdits, DependsOn, parents, empty, Asked]
  | append_singleton edits edit ih => rw [ofEdits_concat, dependsOn_apply, asked_concat, ih]

/-! ### Counting -/

/-- The pairs of a key and a member of its list are as many as the lists are long together. -/
theorem encard_pairs {keys : List String} {lists : String → List String} (hkeys : keys.Nodup)
    (hlists : ∀ key, (lists key).Nodup) (hall : ∀ key x, x ∈ lists key → key ∈ keys) :
    {pair : String × String | pair.2 ∈ lists pair.1}.encard =
      (keys.map fun key => (lists key).length).sum := by
  let pairs := keys.flatMap fun key => (lists key).map fun x => (key, x)
  have hnodup : pairs.Nodup := by
    refine List.nodup_flatMap.mpr ⟨fun key _ => ?_, hkeys.imp fun hne => ?_⟩
    · exact (hlists key).map fun _ _ heq => (Prod.mk.inj heq).2
    · intro pair hpair hpair'
      obtain ⟨x, -, rfl⟩ := List.mem_map.mp hpair
      obtain ⟨y, -, heq⟩ := List.mem_map.mp hpair'
      exact hne (Prod.mk.inj heq).1.symm
  have hset : {pair : String × String | pair.2 ∈ lists pair.1} = pairs.toFinset := by
    ext pair
    rw [List.coe_toFinset, Set.mem_ofPred_eq, Set.mem_ofPred_eq, List.mem_flatMap]
    constructor
    · intro hmem
      exact ⟨pair.1, hall _ _ hmem, List.mem_map.mpr ⟨pair.2, hmem, rfl⟩⟩
    · intro hcase
      rcases hcase with ⟨key, -, hmem⟩
      obtain ⟨x, hx, rfl⟩ := List.mem_map.mp hmem
      exact hx
  rw [hset, Set.encard_coe_eq_coe_finsetCard, List.toFinset_card_of_nodup hnodup,
    List.length_flatMap]
  simp

theorem totalLength_eq (table : Std.HashMap String (List String)) :
    totalLength table = (table.keys.map fun key => (table.getD key []).length).sum := by
  rw [totalLength, ← Std.HashMap.map_fst_toList_eq_keys, List.map_map]
  congr 1
  apply List.map_congr_left
  intro entry hentry
  have hget := Std.HashMap.mem_toList_iff_getElem?_eq_some.mp hentry
  rw [Function.comp_apply, Std.HashMap.getD_eq_getD_getElem?, hget]
  rfl

theorem encard_table {table : Std.HashMap String (List String)}
    (hsorted : ∀ key, (table.getD key []).Pairwise (· < ·)) :
    {pair : String × String | pair.2 ∈ table.getD pair.1 []}.encard = totalLength table := by
  rw [totalLength_eq]
  refine encard_pairs Std.HashMap.nodup_keys (fun key => (hsorted key).imp ne_of_lt) ?_
  intro key x hx
  rw [Std.HashMap.mem_keys]
  by_contra hnone
  rw [Std.HashMap.getD_eq_fallback hnone] at hx
  cases hx

theorem edgeCount_eq (g : Graph) :
    g.edgeCount = (g.nodes.toList.map fun node => (g.parents node).length).sum := by
  rw [edgeCount, ← Array.foldl_toList, List.sum_eq_foldl, List.foldl_map]

/-- The number of edges is the number of pairs of a node and what it depends on. -/
theorem encard_dependsOn {g : Graph} (h : g.WellFormed) (hlisted : g.Listed) :
    {edge : String × String | g.DependsOn edge.1 edge.2}.encard = g.edgeCount := by
  rw [edgeCount_eq]
  refine encard_pairs h.nodup_nodes (fun node => (hlisted.parentsSorted node).imp ne_of_lt) ?_
  intro dependent dependency hd
  exact Array.mem_toList_iff.mpr ((h.contains_iff dependent).mp (h.known _ _ hd).1)

theorem encard_swap (related : String → String → Prop) :
    {pair : String × String | related pair.2 pair.1}.encard =
      {pair : String × String | related pair.1 pair.2}.encard := by
  have himage : Prod.swap '' {pair : String × String | related pair.1 pair.2} =
      {pair | related pair.2 pair.1} := by
    rw [Set.image_swap_eq_preimage_swap]
    rfl
  rw [← himage, Prod.swap_injective.encard_image]

theorem totalLength_lists {g : Graph} (h : g.WellFormed) (hlisted : g.Listed) :
    totalLength g.parentLists = g.edgeCount ∧ totalLength g.childLists = g.edgeCount := by
  have hcount := encard_dependsOn h hlisted
  have hparents : {edge : String × String | g.DependsOn edge.1 edge.2}.encard =
      totalLength g.parentLists := encard_table hlisted.parentsSorted
  have hchildren : {edge : String × String | edge.2 ∈ g.children edge.1}.encard =
      totalLength g.childLists := encard_table hlisted.childrenSorted
  simp only [h.mirrored] at hchildren
  rw [encard_swap g.DependsOn] at hchildren
  exact ⟨Nat.cast_inj.mp (hparents.symm.trans hcount),
    Nat.cast_inj.mp (hchildren.symm.trans hcount)⟩

/-! ### What an edit shows -/

theorem Alike.refl (g : Graph) : g.Alike g :=
  ⟨rfl, fun _ => rfl, fun _ => rfl, rfl⟩

theorem apply_of_not_accepts {g : Graph} {edit : Edit} (h : g.accepts edit = false) :
    g.apply edit = g := by
  cases edit with
  | node name =>
    have hknown : g.contains name = true := by simpa [accepts] using h
    rw [Graph.apply, addNode, if_pos hknown]
  | edge dependent dependency =>
    have hcannot : ¬ g.canAddEdge dependent dependency = true := by simpa [accepts] using h
    rw [Graph.apply, addEdge, if_neg hcannot]

theorem not_alike_of_accepts {g : Graph} {edit : Edit} (h : g.accepts edit = true) :
    ¬ g.Alike (g.apply edit) := by
  intro halike
  cases edit with
  | node name =>
    have hnew : ¬ g.contains name = true := by simpa [accepts] using h
    have hsize := congrArg Array.size halike.nodes
    rw [Graph.apply, addNode, if_neg hnew, Array.size_push] at hsize
    omega
  | edge dependent dependency =>
    have hcan : g.canAddEdge dependent dependency = true := h
    have hdepends : (g.apply (.edge dependent dependency)).DependsOn dependent dependency := by
      rw [Graph.apply, addEdge, if_pos hcan, DependsOn, parents, Std.HashMap.getD_insert_self]
      exact Names.mem_insert.mpr (Or.inl rfl)
    rw [DependsOn, halike.parents] at hdepends
    simp only [canAddEdge, Bool.and_eq_true, Bool.not_eq_true', List.contains_eq_mem,
      decide_eq_false_iff_not] at hcan
    exact hcan.2 hdepends

/-- After any edits: no node stands twice, and the index gives the position of each; the lists of
both directions are in increasing order of bytes, join known nodes and mirror each other, and an
edge is in them exactly if it was asked for while both ends were known; the edges are counted by
these pairs and by both tables; and an edit, made with searches in the sorted lists or without, is
accepted exactly if it shows, while one that is not leaves the graph as it is. -/
theorem representation_ofEdits (edits : List Edit) :
    let g := ofEdits edits
    g.nodes.toList.Nodup ∧
    (∀ (node : String) (position : Nat),
      g.index[node]? = some position ↔ g.nodes[position]? = some node) ∧
    (∀ node, ∀ names ∈ [g.parents node, g.children node],
      names.Pairwise (fun x y => x.toUTF8.toList < y.toUTF8.toList) ∧
        ∀ name ∈ names, name ∈ g.nodes ∧ node ∈ g.nodes) ∧
    (∀ dependent dependency,
      (dependency ∈ g.parents dependent ↔ Asked edits dependent dependency) ∧
      (dependent ∈ g.children dependency ↔ Asked edits dependent dependency)) ∧
    g.edgeCount = {edge : String × String | Asked edits edge.1 edge.2}.encard ∧
    g.edgeCount = totalLength g.parentLists ∧ g.edgeCount = totalLength g.childLists ∧
    ∀ edit, g.perform edit = (g.accepts edit, g.apply edit) ∧
      (g.accepts edit = true ↔ ¬ g.Alike (g.apply edit)) ∧
      (g.accepts edit = false → g.apply edit = g) := by
  have h := wellFormed_ofEdits edits
  have hlisted := listed_ofEdits edits
  have hbytes : ∀ {names : List String}, names.Pairwise (· < ·) →
      names.Pairwise fun x y => x.toUTF8.toList < y.toUTF8.toList :=
    fun hsorted => hsorted.imp Text.toUTF8_lt_iff.mpr
  have hknown : ∀ {dependent dependency : String},
      (ofEdits edits).DependsOn dependent dependency →
        dependent ∈ (ofEdits edits).nodes ∧ dependency ∈ (ofEdits edits).nodes := by
    intro dependent dependency hd
    obtain ⟨hdependent, hdependency⟩ := h.known _ _ hd
    exact ⟨(h.contains_iff _).mp hdependent, (h.contains_iff _).mp hdependency⟩
  have hcount := encard_dependsOn h hlisted
  simp only [dependsOn_ofEdits] at hcount
  obtain ⟨hparents, hchildren⟩ := totalLength_lists h hlisted
  refine ⟨h.nodup_nodes, h.index_iff, fun node names hnames => ?_, fun dependent dependency => ?_,
    hcount.symm, hparents.symm, hchildren.symm, fun edit => ⟨hlisted.perform edit,
      ⟨not_alike_of_accepts, ?_⟩, apply_of_not_accepts⟩⟩
  · rcases List.mem_cons.mp hnames with rfl | hnames
    · exact ⟨hbytes (hlisted.parentsSorted node), fun name hname => (hknown hname).symm⟩
    · rw [List.mem_singleton.mp hnames]
      exact ⟨hbytes (hlisted.childrenSorted node),
        fun name hname => hknown ((h.mirrored _ _).mp hname)⟩
  · exact ⟨dependsOn_ofEdits edits _ _, (h.mirrored _ _).trans (dependsOn_ofEdits edits _ _)⟩
  · intro hshows
    by_contra hrefused
    rw [apply_of_not_accepts (by simpa using hrefused)] at hshows
    exact hshows (Alike.refl _)

/-- An edge to a node that is added later is dropped, and a repeated edge is refused. -/
example :
    let g := ofEdits [.node "b", .edge "b" "a", .node "a", .edge "b" "a"]
    g.parents "b" = ["a"] ∧ g.edgeCount = 1 ∧ g.accepts (.edge "b" "a") = false := by
  cbv

end Graph

end QueryBuild

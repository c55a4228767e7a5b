import Mathlib.Data.List.Nodup
import Mathlib.Logic.Relation
import Mathlib.Tactic.Common
import QueryBuild.Graph.Basic
/-!
# Graphs made by edits

A graph grows by adding nodes and edges in any order. Whatever is asked for, every node has one
position, edges join known nodes only, and both directions of an edge are recorded.
-/

namespace QueryBuild.Graph

/-- Something to add to a graph. -/
inductive Edit where
  | node (name : String)
  | edge (dependent dependency : String)
deriving DecidableEq, Inhabited

/-- The graph after one edit. -/
def apply (g : Graph) : Edit → Graph
  | .node name => g.addNode name
  | .edge dependent dependency => g.addEdge dependent dependency

/-- The graph that edits make of the empty one, from left to right. -/
def ofEdits (edits : List Edit) : Graph :=
  edits.foldl apply empty

/-- A node depends directly on another one. -/
def DependsOn (g : Graph) (dependent dependency : String) : Prop :=
  dependency ∈ g.parents dependent

/-- No node depends on itself through a chain of edges. -/
def Acyclic (g : Graph) : Prop :=
  ∀ node, ¬ Relation.TransGen g.DependsOn node node

/-- The tables of a graph agree with each other. -/
structure WellFormed (g : Graph) : Prop where
  index_iff : ∀ (node : String) (position : Nat),
    g.index[node]? = some position ↔ g.nodes[position]? = some node
  known : ∀ dependent dependency, g.DependsOn dependent dependency →
    g.contains dependent = true ∧ g.contains dependency = true
  mirrored : ∀ dependent dependency,
    dependent ∈ g.children dependency ↔ g.DependsOn dependent dependency

/-! ### One edit -/

@[simp] theorem nodes_addEdge (g : Graph) (a b : String) : (g.addEdge a b).nodes = g.nodes := by
  rw [addEdge]
  split <;> rfl

@[simp] theorem index_addEdge (g : Graph) (a b : String) : (g.addEdge a b).index = g.index := by
  rw [addEdge]
  split <;> rfl

@[simp] theorem contains_addEdge (g : Graph) (a b node : String) :
    (g.addEdge a b).contains node = g.contains node := by
  rw [contains, contains, index_addEdge]

@[simp] theorem parents_addNode (g : Graph) (name node : String) :
    (g.addNode name).parents node = g.parents node := by
  rw [addNode]
  split <;> rfl

@[simp] theorem children_addNode (g : Graph) (name node : String) :
    (g.addNode name).children node = g.children node := by
  rw [addNode]
  split <;> rfl

theorem contains_addNode (g : Graph) (name node : String) :
    (g.addNode name).contains node = true ↔ node = name ∨ g.contains node = true := by
  rw [addNode]
  split
  · rename_i h
    constructor
    · exact Or.inr
    · intro hcase
      rcases hcase with rfl | hn
      · exact h
      · exact hn
  · simp only [contains, Std.HashMap.contains_insert, Bool.or_eq_true, beq_iff_eq]
    exact ⟨fun h => h.imp Eq.symm id, fun h => h.imp Eq.symm id⟩

theorem dependsOn_of_not_canAddEdge {g : Graph} {dependent dependency : String}
    (h : ¬ g.canAddEdge dependent dependency = true) (hdependent : g.contains dependent = true)
    (hdependency : g.contains dependency = true) : g.DependsOn dependent dependency := by
  by_contra hnot
  apply h
  simpa [canAddEdge, hdependent, hdependency, DependsOn] using hnot

/-- An edge is recorded under its dependent if both ends are known; nothing else changes. -/
theorem dependsOn_addEdge (g : Graph) (a b dependent dependency : String) :
    (g.addEdge a b).DependsOn dependent dependency ↔ g.DependsOn dependent dependency ∨
      (dependent = a ∧ dependency = b ∧ g.contains a = true ∧ g.contains b = true) := by
  rw [addEdge]
  split
  · rename_i h
    simp only [canAddEdge, Bool.and_eq_true] at h
    by_cases hd : dependent = a
    · subst hd
      simp only [DependsOn, parents, Std.HashMap.getD_insert_self, Names.mem_insert, true_and]
      exact ⟨fun hm => hm.elim (fun he => Or.inr ⟨he, h.1⟩) Or.inl,
        fun hm => hm.elim Or.inr fun he => Or.inl he.1⟩
    · have hne : (a == dependent) = false := by simpa using fun he => hd he.symm
      simp only [DependsOn, parents, Std.HashMap.getD_insert, hne, hd, false_and, or_false]
      rfl
  · rename_i h
    refine ⟨Or.inl, fun hcase => ?_⟩
    rcases hcase with hm | ⟨rfl, rfl, ha, hb⟩
    · exact hm
    · exact dependsOn_of_not_canAddEdge h ha hb

theorem mem_children_addEdge (g : Graph) (a b dependent dependency : String)
    (hm : ∀ x y, x ∈ g.children y ↔ g.DependsOn x y) :
    dependent ∈ (g.addEdge a b).children dependency ↔ g.DependsOn dependent dependency ∨
      (dependent = a ∧ dependency = b ∧ g.contains a = true ∧ g.contains b = true) := by
  rw [addEdge]
  split
  · rename_i h
    simp only [canAddEdge, Bool.and_eq_true] at h
    by_cases hd : dependency = b
    · subst hd
      have hc := hm dependent dependency
      simp only [children, Std.HashMap.getD_insert_self, Names.mem_insert] at hc ⊢
      rw [hc]
      exact ⟨fun hm => hm.elim (fun he => Or.inr ⟨he, trivial, h.1⟩) Or.inl,
        fun hm => hm.elim Or.inr fun he => Or.inl he.1⟩
    · have hne : (b == dependency) = false := by simpa using fun he => hd he.symm
      have hc := hm dependent dependency
      simp only [children, Std.HashMap.getD_insert, hne, hd, false_and, and_false, or_false]
        at hc ⊢
      exact hc
  · rename_i h
    rw [hm]
    refine ⟨Or.inl, fun hcase => ?_⟩
    rcases hcase with hm | ⟨rfl, rfl, ha, hb⟩
    · exact hm
    · exact dependsOn_of_not_canAddEdge h ha hb

/-! ### Every edit keeps the tables in agreement -/

theorem wellFormed_empty : empty.WellFormed where
  index_iff := by simp [empty]
  known := by simp [DependsOn, parents, empty]
  mirrored := by simp [DependsOn, parents, children, empty]

theorem WellFormed.contains_iff {g : Graph} (h : g.WellFormed) (node : String) :
    g.contains node = true ↔ node ∈ g.nodes := by
  rw [contains, Std.HashMap.contains_eq_isSome_getElem?, Option.isSome_iff_exists]
  simp only [h.index_iff, Array.mem_iff_getElem?]

theorem WellFormed.addNode {g : Graph} (h : g.WellFormed) (name : String) :
    (g.addNode name).WellFormed where
  index_iff node position := by
    rw [Graph.addNode]
    split
    · exact h.index_iff node position
    · rename_i hc
      have hmem : name ∉ g.nodes := fun hm => hc ((h.contains_iff name).mpr hm)
      simp only [Std.HashMap.getElem?_insert, Array.getElem?_push, beq_iff_eq]
      by_cases hn : name = node
      · subst hn
        by_cases hp : position = g.nodes.size
        · simp [hp]
        · have hne : g.nodes[position]? ≠ some name := fun he => hmem (Array.mem_of_getElem? he)
          simp [hp, hne, Ne.symm hp]
      · rw [if_neg hn, h.index_iff]
        by_cases hp : position = g.nodes.size
        · simp [hp, hn]
        · rw [if_neg hp]
  known dependent dependency hd := by
    have hd' : g.DependsOn dependent dependency := by simpa [DependsOn] using hd
    simp only [contains_addNode]
    exact ⟨Or.inr (h.known _ _ hd').1, Or.inr (h.known _ _ hd').2⟩
  mirrored dependent dependency := by
    simpa [DependsOn] using h.mirrored dependent dependency

theorem WellFormed.addEdge {g : Graph} (h : g.WellFormed) (a b : String) :
    (g.addEdge a b).WellFormed where
  index_iff node position := by simpa using h.index_iff node position
  known dependent dependency hd := by
    simp only [contains_addEdge]
    rcases (dependsOn_addEdge g a b _ _).mp hd with hd | ⟨rfl, rfl, hk⟩
    · exact h.known _ _ hd
    · exact hk
  mirrored dependent dependency := by
    rw [mem_children_addEdge g a b _ _ h.mirrored, dependsOn_addEdge]

theorem WellFormed.apply {g : Graph} (h : g.WellFormed) (edit : Edit) :
    (g.apply edit).WellFormed := by
  cases edit with
  | node name => exact h.addNode name
  | edge dependent dependency => exact h.addEdge dependent dependency

/-- The tables of every graph that edits can make agree with each other. -/
theorem wellFormed_ofEdits (edits : List Edit) : (ofEdits edits).WellFormed := by
  have hrun (g : Graph) (h : g.WellFormed) : (edits.foldl Graph.apply g).WellFormed := by
    induction edits generalizing g with
    | nil => exact h
    | cons edit edits ih => exact ih (g.apply edit) (h.apply edit)
  exact hrun empty wellFormed_empty

/-! ### Nodes and edges that are given together -/

/-- The graph with edges added one after the other. -/
def addEdges (g : Graph) (edges : List (String × String)) : Graph :=
  edges.foldl (fun g edge => g.addEdge edge.1 edge.2) g

theorem ofEdges_eq_addEdges (nodes : List String) (edges : List (String × String)) :
    ofEdges nodes edges = (nodes.foldl Graph.addNode empty).addEdges edges :=
  rfl

theorem nodes_addEdges (g : Graph) (edges : List (String × String)) :
    (g.addEdges edges).nodes = g.nodes := by
  induction edges generalizing g with
  | nil => rfl
  | cons edge edges ih => exact (ih _).trans (nodes_addEdge g edge.1 edge.2)

theorem contains_addEdges (g : Graph) (edges : List (String × String)) (node : String) :
    (g.addEdges edges).contains node = g.contains node := by
  induction edges generalizing g with
  | nil => rfl
  | cons edge edges ih => exact (ih _).trans (contains_addEdge g edge.1 edge.2 node)

theorem WellFormed.addEdges {g : Graph} (h : g.WellFormed) (edges : List (String × String)) :
    (g.addEdges edges).WellFormed := by
  induction edges generalizing g with
  | nil => exact h
  | cons edge edges ih => exact ih (h.addEdge edge.1 edge.2)

theorem dependsOn_addEdges (g : Graph) (edges : List (String × String))
    (dependent dependency : String) :
    (g.addEdges edges).DependsOn dependent dependency ↔ g.DependsOn dependent dependency ∨
      ((dependent, dependency) ∈ edges ∧
        g.contains dependent = true ∧ g.contains dependency = true) := by
  induction edges generalizing g with
  | nil => simp [addEdges]
  | cons edge edges ih =>
    obtain ⟨a, b⟩ := edge
    have hrest : g.addEdges ((a, b) :: edges) = (g.addEdge a b).addEdges edges := rfl
    rw [hrest, ih, dependsOn_addEdge, contains_addEdge, contains_addEdge, List.mem_cons,
      Prod.mk.injEq]
    constructor
    · intro hcase
      rcases hcase with (hd | ⟨rfl, rfl, hknown⟩) | ⟨hmem, hknown⟩
      · exact Or.inl hd
      · exact Or.inr ⟨Or.inl ⟨rfl, rfl⟩, hknown⟩
      · exact Or.inr ⟨Or.inr hmem, hknown⟩
    · intro hcase
      rcases hcase with hd | ⟨⟨rfl, rfl⟩ | hmem, hknown⟩
      · exact Or.inl (Or.inl hd)
      · exact Or.inl (Or.inr ⟨rfl, rfl, hknown⟩)
      · exact Or.inr ⟨hmem, hknown⟩

theorem WellFormed.addNodes {g : Graph} (h : g.WellFormed) (nodes : List String) :
    (nodes.foldl Graph.addNode g).WellFormed := by
  induction nodes generalizing g with
  | nil => exact h
  | cons node nodes ih => exact ih (h.addNode node)

theorem contains_addNodes (g : Graph) (nodes : List String) (node : String) :
    (nodes.foldl Graph.addNode g).contains node = true ↔
      node ∈ nodes ∨ g.contains node = true := by
  induction nodes generalizing g with
  | nil => simp
  | cons first nodes ih =>
    rw [List.foldl_cons, ih, contains_addNode, List.mem_cons, or_left_comm, or_assoc]

theorem parents_addNodes (g : Graph) (nodes : List String) (node : String) :
    (nodes.foldl Graph.addNode g).parents node = g.parents node := by
  induction nodes generalizing g with
  | nil => rfl
  | cons first nodes ih => rw [List.foldl_cons, ih, parents_addNode]

theorem wellFormed_ofEdges (nodes : List String) (edges : List (String × String)) :
    (ofEdges nodes edges).WellFormed :=
  (wellFormed_empty.addNodes nodes).addEdges edges

theorem contains_ofEdges (nodes : List String) (edges : List (String × String)) (node : String) :
    (ofEdges nodes edges).contains node = true ↔ node ∈ nodes := by
  rw [ofEdges_eq_addEdges, contains_addEdges, contains_addNodes]
  simp [contains, empty]

/-- The edges are the given ones whose ends are among the given nodes. -/
theorem dependsOn_ofEdges (nodes : List String) (edges : List (String × String))
    (dependent dependency : String) :
    (ofEdges nodes edges).DependsOn dependent dependency ↔
      (dependent, dependency) ∈ edges ∧ dependent ∈ nodes ∧ dependency ∈ nodes := by
  have hknown : ∀ node, (nodes.foldl Graph.addNode empty).contains node = true ↔ node ∈ nodes :=
    fun node => contains_ofEdges nodes [] node
  have hnone : ¬ (nodes.foldl Graph.addNode empty).DependsOn dependent dependency := by
    rw [DependsOn, parents_addNodes]
    simp [parents, empty]
  rw [ofEdges_eq_addEdges, dependsOn_addEdges, hknown, hknown]
  exact or_iff_right hnone

/-- Nodes and edges that are given together are added one after the other. -/
theorem ofEdges_eq_ofEdits (nodes : List String) (edges : List (String × String)) :
    ofEdges nodes edges =
      ofEdits (nodes.map .node ++ edges.map fun edge => .edge edge.1 edge.2) := by
  rw [ofEdges, ofEdits, List.foldl_append, List.foldl_map, List.foldl_map]
  rfl

theorem WellFormed.nodup_nodes {g : Graph} (h : g.WellFormed) : g.nodes.toList.Nodup := by
  rw [List.nodup_iff_getElem?_ne_getElem?]
  intro i j hij hj heq
  have hget : g.nodes[j]? = some g.nodes[j] := Array.getElem?_eq_getElem hj
  have hi : g.nodes[i]? = some g.nodes[j] := by simpa [hget] using heq
  have hpos := ((h.index_iff _ i).mpr hi).symm.trans ((h.index_iff _ j).mpr hget)
  exact absurd (Option.some.inj hpos) (Nat.ne_of_lt hij)

end QueryBuild.Graph

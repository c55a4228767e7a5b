import QueryBuild.Graph.Reach
import QueryBuild.Proofs.Graph.Edges
/-!
# Walks list what is reachable

A breadth-first walk lists every node that one or more edges lead to, each of them once.
-/

namespace QueryBuild.Graph

open Relation

variable {next : String → List String}

/-- The nodes met by a walk with a single queue. -/
def walkQueue (next : String → List String) (unseen : Std.HashSet String) :
    List String → List String
  | [] => []
  | node :: queue =>
    if _h : unseen.contains node then
      let rest := unseen.erase node
      node :: walkQueue next rest (queue ++ (next node).filter rest.contains)
    else walkQueue next unseen queue
termination_by queue => (unseen.size, queue.length)
decreasing_by
  · exact Prod.Lex.left _ _ (size_erase_lt _ _ _h)
  · exact Prod.Lex.right _ (by simp)

/-- What is kept in reverse for later stands behind the queue. -/
theorem walk_eq_walkQueue (unseen : Std.HashSet String) (queue later : List String) :
    walk next unseen queue later = walkQueue next unseen (queue ++ later.reverse) := by
  fun_induction walk next unseen queue later with
  | case1 unseen later node queue hu rest ih =>
    rw [List.cons_append, walkQueue, dif_pos hu, ih]
    simp only [rest, List.reverse_append, List.reverse_reverse, List.append_assoc]
  | case2 unseen later node queue hu ih => rw [List.cons_append, walkQueue, dif_neg hu, ih]
  | case3 unseen later turned => rw [turned, List.nil_append, walkQueue]
  | case4 unseen later node queue turned hu rest ih =>
    rw [turned, List.nil_append, walkQueue, dif_pos hu, ih, List.reverse_reverse]
  | case5 unseen later node queue turned hu ih =>
    rw [turned, List.nil_append, walkQueue, dif_neg hu, ih]
    simp

theorem contains_erase_iff (unseen : Std.HashSet String) (node other : String) :
    (unseen.erase node).contains other = true ↔ other ≠ node ∧ unseen.contains other = true := by
  rw [Std.HashSet.contains_erase, Bool.and_eq_true, Bool.not_eq_true', beq_eq_false_iff_ne]
  exact and_congr_left fun _ => ne_comm

theorem unseen_of_mem_walkQueue {unseen : Std.HashSet String} {queue : List String} {node : String}
    (h : node ∈ walkQueue next unseen queue) : unseen.contains node = true := by
  fun_induction walkQueue next unseen queue with
  | case1 => cases h
  | case2 unseen first queue hu rest ih =>
    rcases List.mem_cons.mp h with rfl | h
    · exact hu
    · exact ((contains_erase_iff _ _ _).mp (ih h)).2
  | case3 unseen first queue hu ih => exact ih h

theorem nodup_walkQueue (unseen : Std.HashSet String) (queue : List String) :
    (walkQueue next unseen queue).Nodup := by
  fun_induction walkQueue next unseen queue with
  | case1 => exact List.nodup_nil
  | case2 unseen node queue hu rest ih =>
    refine List.nodup_cons.mpr ⟨fun hm => ?_, ih⟩
    exact ((contains_erase_iff _ _ _).mp (unseen_of_mem_walkQueue hm)).1 rfl
  | case3 unseen node queue hu ih => exact ih

theorem reachable_of_mem_walkQueue {unseen : Std.HashSet String} {queue : List String}
    {node : String} (h : node ∈ walkQueue next unseen queue) :
    ∃ start ∈ queue, ReflTransGen (fun a b => b ∈ next a) start node := by
  fun_induction walkQueue next unseen queue with
  | case1 => cases h
  | case2 unseen first queue hu rest ih =>
    rcases List.mem_cons.mp h with rfl | h
    · exact ⟨node, by simp, .refl⟩
    · obtain ⟨start, hs, hpath⟩ := ih h
      rcases List.mem_append.mp hs with hs | hs
      · exact ⟨start, by simp [hs], hpath⟩
      · exact ⟨first, by simp, .head (List.mem_filter.mp hs).1 hpath⟩
  | case3 unseen first queue hu ih =>
    obtain ⟨start, hs, hpath⟩ := ih h
    exact ⟨start, by simp [hs], hpath⟩

theorem mem_walkQueue_of_mem {unseen : Std.HashSet String} {queue : List String} {node : String}
    (hq : node ∈ queue) (hu : unseen.contains node = true) :
    node ∈ walkQueue next unseen queue := by
  fun_induction walkQueue next unseen queue with
  | case1 => cases hq
  | case2 unseen first queue hfirst rest ih =>
    by_cases hn : node = first
    · simp [hn]
    · have hq' : node ∈ queue := (List.mem_cons.mp hq).resolve_left hn
      exact List.mem_cons_of_mem _
        (ih (List.mem_append_left _ hq') ((contains_erase_iff _ _ _).mpr ⟨hn, hu⟩))
  | case3 unseen first queue hfirst ih =>
    have hn : node ≠ first := by
      intro heq
      subst heq
      exact hfirst hu
    exact ih ((List.mem_cons.mp hq).resolve_left hn) hu

theorem mem_walkQueue_of_next {unseen : Std.HashSet String} {queue : List String}
    {node other : String} (h : node ∈ walkQueue next unseen queue) (hn : other ∈ next node)
    (hu : unseen.contains other = true) : other ∈ walkQueue next unseen queue := by
  fun_induction walkQueue next unseen queue with
  | case1 => cases h
  | case2 unseen first queue hfirst rest ih =>
    by_cases ho : other = first
    · simp [ho]
    · have hrest : rest.contains other = true := (contains_erase_iff _ _ _).mpr ⟨ho, hu⟩
      apply List.mem_cons_of_mem
      rcases List.mem_cons.mp h with rfl | h
      · apply mem_walkQueue_of_mem _ hrest
        exact List.mem_append_right _ (List.mem_filter.mpr ⟨hn, hrest⟩)
      · exact ih h hrest
  | case3 unseen first queue hfirst ih => exact ih h hu

/-! ### Walks over all nodes -/

theorem contains_nodeSet (g : Graph) (node : String) :
    g.nodeSet.contains node = true ↔ node ∈ g.nodes := by
  have hfold (nodes : List String) (set : Std.HashSet String) :
      (nodes.foldl (fun set node => set.insert node) set).contains node = true ↔
        node ∈ nodes ∨ set.contains node = true := by
    induction nodes generalizing set with
    | nil => simp
    | cons first nodes ih =>
      rw [List.foldl_cons, ih, Std.HashSet.contains_insert, Bool.or_eq_true, beq_iff_eq,
        List.mem_cons, or_left_comm, or_assoc, eq_comm]
  rw [nodeSet, ← Array.foldl_toList, hfold]
  simp

/-- A walk from the neighbours of a node lists what one or more edges lead to. -/
theorem mem_walk_iff {g : Graph} (h : ∀ a, ∀ b ∈ next a, b ∈ g.nodes) (start node : String) :
    node ∈ walk next g.nodeSet (next start) [] ↔
      TransGen (fun a b => b ∈ next a) start node := by
  rw [walk_eq_walkQueue, List.reverse_nil, List.append_nil]
  constructor
  · intro hm
    obtain ⟨first, hfirst, hpath⟩ := reachable_of_mem_walkQueue hm
    exact .head' hfirst hpath
  · intro hpath
    have hunseen {a b : String} (hb : b ∈ next a) : g.nodeSet.contains b = true :=
      (contains_nodeSet g b).mpr (h a b hb)
    induction hpath with
    | single hn => exact mem_walkQueue_of_mem hn (hunseen hn)
    | tail _ hn ih => exact mem_walkQueue_of_next ih hn (hunseen hn)

/-- The dependents of a node are the nodes that depend on it, directly or through others. -/
theorem mem_allDependents {g : Graph} (h : g.WellFormed) (node dependent : String) :
    dependent ∈ g.allDependents node ↔ TransGen g.DependsOn dependent node := by
  have hknown : ∀ a, ∀ b ∈ g.children a, b ∈ g.nodes := fun a b hb =>
    (h.contains_iff b).mp (h.known _ _ ((h.mirrored b a).mp hb)).1
  rw [allDependents, mem_walk_iff hknown, ← transGen_swap]
  simp only [h.mirrored]

end QueryBuild.Graph

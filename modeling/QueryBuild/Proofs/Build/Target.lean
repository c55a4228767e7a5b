import QueryBuild.Proofs.Build.Failure
import QueryBuild.Proofs.Graph.Distance
/-!
# The part of a plan that one unit needs

The order of a target is what is left of the build order without the units that the target does not
need. All that a unit needs stands in front of it, so that nothing stands behind the target.
-/

namespace QueryBuild

open Relation

namespace Graph

variable {g : Graph} {order : List String}

/-- All that a node depends on, directly or through others, stands in front of it. -/
theorem Respects.mem_before (h : g.Respects order) {before after : List String}
    {node dependency : String} (hsplit : order = before ++ node :: after)
    (hd : TransGen g.DependsOn node dependency) : dependency ∈ before := by
  induction hd with
  | single hd => exact h before node after hsplit _ hd
  | tail _ hd ih =>
    obtain ⟨front, behind, rfl⟩ := List.append_of_mem ih
    have hdeeper := h front _ (behind ++ node :: after) (by simp [hsplit]) _ hd
    exact List.mem_append_left _ hdeeper

theorem Respects.getLast?_eq (h : g.Respects order) (hnodup : order.Nodup) {node : String}
    (hnode : node ∈ order)
    (hneeds : ∀ other ∈ order, other = node ∨ TransGen g.DependsOn node other) :
    order.getLast? = some node := by
  obtain ⟨front, behind, hsplit⟩ := List.append_of_mem hnode
  have hnone : behind = [] := by
    rw [List.eq_nil_iff_forall_not_mem]
    intro other hother
    rw [hsplit, List.nodup_append] at hnodup
    rcases hneeds other (by simp [hsplit, hother]) with rfl | hpath
    · exact (List.nodup_cons.mp hnodup.2.1).1 hother
    · have hfront := h.mem_before hsplit hpath
      exact hnodup.2.2 other hfront other (by simp [hother]) rfl
  rw [hsplit, hnone, List.getLast?_concat]

/-- An order still respects the edges without some nodes, if none of those left depends on them. -/
theorem Respects.filter (h : g.Respects order) {wanted : String → Bool}
    (hclosed : ∀ node dependency, wanted node = true → g.DependsOn node dependency →
      wanted dependency = true) : g.Respects (order.filter wanted) := by
  intro before node after hsplit dependency hd
  obtain ⟨front, back, rfl, rfl, hback⟩ := List.filter_eq_append_iff.mp hsplit
  obtain ⟨dropped, behind, rfl, hdropped, hnode, -⟩ := List.filter_eq_cons_iff.mp hback
  have hwanted := hclosed node dependency hnode hd
  have hbefore := h (front ++ dropped) node behind (by simp) dependency hd
  rcases List.mem_append.mp hbefore with hfront | hmem
  · exact List.mem_filter.mpr ⟨hfront, hwanted⟩
  · exact absurd hwanted (hdropped dependency hmem)

end Graph

namespace BuildPlan

variable {extract : Extractor} {fs : FileSystem} {plan : BuildPlan} {target : String}

theorem Resolved.targetOrder_isSome_iff (h : plan.Resolved extract fs) :
    (plan.targetOrder target).isSome = true ↔ target ∈ plan.names := by
  have hunit : (plan.discovered.unit? target).isSome = true ↔ target ∈ plan.names := by
    rw [h.names_perm.mem_iff, UnitGraph.unit?, List.find?_isSome, List.mem_map]
    simp only [beq_iff_eq]
  rw [← hunit, targetOrder]
  cases plan.discovered.unit? target <;> simp

/-- The names in the order of a target are those names in build order that it needs. -/
theorem names_of_targetOrder {units : List BuildUnit}
    (hunits : plan.targetOrder target = some units) :
    units.Sublist plan.order ∧ units.map BuildUnit.name =
      plan.names.filter (target :: plan.discovered.graph.allDependencies target).contains := by
  rw [targetOrder] at hunits
  split at hunits
  · cases hunits
  · cases hunits
    refine ⟨List.filter_sublist, ?_⟩
    rw [names, List.filter_map]
    rfl

/-- A plan has an order for each of its units and for no other name. The order is a part of the
build order without repetitions; it holds the target and all that the target depends on, directly
or through others, and nothing else; each unit stands in it behind all that it depends on, and the
target stands at the end. -/
theorem targetOrder_spec {path : Path} (hplan : (resolveWith extract fs path).2 = .ok plan)
    (target : String) :
    ((plan.targetOrder target).isSome = true ↔ target ∈ plan.names) ∧
    ∀ units, plan.targetOrder target = some units →
      units.Sublist plan.order ∧ (units.map BuildUnit.name).Nodup ∧
      (∀ name, name ∈ units.map BuildUnit.name ↔
        name = target ∨ TransGen plan.discovered.graph.DependsOn target name) ∧
      plan.discovered.graph.Respects (units.map BuildUnit.name) ∧
      (units.map BuildUnit.name).getLast? = some target := by
  have h := resolved_of_resolveWith hplan
  refine ⟨h.targetOrder_isSome_iff, fun units hunits => ?_⟩
  have htarget : target ∈ plan.names := by
    rw [← h.targetOrder_isSome_iff, hunits]
    rfl
  obtain ⟨hsub, hnames⟩ := names_of_targetOrder hunits
  have hneeded : ∀ name, (target :: plan.discovered.graph.allDependencies target).contains name =
      true ↔ name = target ∨ TransGen plan.discovered.graph.DependsOn target name := by
    intro name
    rw [List.contains_iff_mem, List.mem_cons,
      (Graph.reachable_allDependencies h.linked.wellFormed target).mem_iff]
  have hnodup : (units.map BuildUnit.name).Nodup := by
    rw [hnames]
    exact h.nodup.filter _
  have hmem : ∀ name, name ∈ units.map BuildUnit.name ↔
      name = target ∨ TransGen plan.discovered.graph.DependsOn target name := by
    intro name
    rw [hnames, List.mem_filter, hneeded, and_iff_right_iff_imp]
    rintro (rfl | hpath)
    · exact htarget
    · obtain ⟨_, -, hd⟩ := TransGen.tail'_iff.mp hpath
      have hunit := (h.linked.contains_iff name).mp (h.linked.wellFormed.known _ _ hd).2
      exact h.names_perm.mem_iff.mpr hunit
  have hrespects : plan.discovered.graph.Respects (units.map BuildUnit.name) := by
    rw [hnames]
    apply h.respects.filter
    intro node dependency hnode hd
    rw [hneeded] at hnode ⊢
    rcases hnode with rfl | hpath
    · exact Or.inr (.single hd)
    · exact Or.inr (hpath.tail hd)
  have hlast := hrespects.getLast?_eq hnodup ((hmem target).mpr (Or.inl rfl)) fun name hname =>
    (hmem name).mp hname
  exact ⟨hsub, hnodup, hmem, hrespects, hlast⟩

/-- The first of two units needs nothing else, the second one needs the first, and no other name
has an order. -/
theorem targets_of_pair :
    (resolveWith Reference.names Sample.files ⟨"/w"⟩).2 = .ok Sample.pair ∧
      Sample.pair.targetOrder "a" = some [Sample.first] ∧
      Sample.pair.targetOrder "b" = some [Sample.first, Sample.second] ∧
      Sample.pair.targetOrder "c" = none ∧
      (∀ name, name ∈ ["a"] ↔
        name = "a" ∨ TransGen Sample.pair.discovered.graph.DependsOn "a" name) ∧
      ∀ name, name ∈ ["a", "b"] ↔
        name = "b" ∨ TransGen Sample.pair.discovered.graph.DependsOn "b" name := by
  have hfirst : Sample.pair.targetOrder "a" = some [Sample.first] := by cbv
  have hsecond : Sample.pair.targetOrder "b" = some [Sample.first, Sample.second] := by cbv
  obtain ⟨-, -, hneeds, -⟩ := (targetOrder_spec Sample.resolve_files "a").2 _ hfirst
  obtain ⟨-, -, hneeds', -⟩ := (targetOrder_spec Sample.resolve_files "b").2 _ hsecond
  exact ⟨Sample.resolve_files, hfirst, hsecond, by cbv, hneeds, hneeds'⟩

end BuildPlan

end QueryBuild

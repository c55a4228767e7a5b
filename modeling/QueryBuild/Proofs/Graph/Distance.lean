import Mathlib.Order.Lattice.Nat
import QueryBuild.Proofs.Graph.Closure
import QueryBuild.Proofs.Graph.CyclePath
/-!
# The nearest first

A breadth-first walk lists what is reachable in the order of its distance. At every moment its
queue holds nodes at one distance and behind them nodes that are one edge further away; whatever
was not met yet is not nearer than these.
-/

namespace QueryBuild.Graph

open Relation

variable {α : Type} {related : α → α → Prop}

/-! ### Distances -/

/-- A way of that many edges leads from one place to another. -/
inductive Leads (related : α → α → Prop) : Nat → α → α → Prop
  | refl (a : α) : Leads related 0 a a
  | tail {n : Nat} {a b c : α} (way : Leads related n a b) (edge : related b c) :
      Leads related (n + 1) a c

/-- The least positive number of edges that lead from one place to another. -/
noncomputable def distance (related : α → α → Prop) (a b : α) : Nat :=
  sInf {n | 0 < n ∧ Leads related n a b}

theorem Leads.reflTransGen {n : Nat} {a b : α} (h : Leads related n a b) :
    ReflTransGen related a b := by
  induction h with
  | refl a => exact .refl
  | tail _ edge ih => exact .tail ih edge

theorem exists_leads {a b : α} (h : TransGen related a b) :
    ∃ n, 0 < n ∧ Leads related n a b := by
  induction h with
  | single edge => exact ⟨1, Nat.one_pos, .tail (.refl a) edge⟩
  | tail _ edge ih =>
    obtain ⟨n, -, way⟩ := ih
    exact ⟨n + 1, Nat.succ_pos n, .tail way edge⟩

theorem distance_eq {n : Nat} {a b : α} (hpos : 0 < n) (hway : Leads related n a b)
    (hleast : ∀ m, 0 < m → Leads related m a b → n ≤ m) : distance related a b = n := by
  have hways : {m | 0 < m ∧ Leads related m a b}.Nonempty := ⟨n, hpos, hway⟩
  obtain ⟨hpos', hway'⟩ := Nat.sInf_mem hways
  exact le_antisymm (Nat.sInf_le ⟨hpos, hway⟩) (hleast _ hpos' hway')

/-! ### The queue of a walk -/

variable {next : String → List String}

/-- What holds of a walk whose queue has `near` in front and `far` behind: ways of `n` edges lead
to the one part and ways of one edge more to the other, no unseen node is nearer than that, and all
unseen neighbours of what was seen are waiting. -/
structure Frontier (next : String → List String) (start : String) (unseen : Std.HashSet String)
    (n : Nat) (near far : List String) : Prop where
  positive : 0 < n
  nearLeads : ∀ v ∈ near, Leads (fun a b => b ∈ next a) n start v
  farLeads : ∀ v ∈ far, Leads (fun a b => b ∈ next a) (n + 1) start v
  least : ∀ v m, unseen.contains v = true → 0 < m → Leads (fun a b => b ∈ next a) m start v →
    n ≤ m ∧ (m = n → v ∈ near)
  closed : ∀ u v m, 0 < m → Leads (fun a b => b ∈ next a) m start u →
    unseen.contains u = false → v ∈ next u → unseen.contains v = true → v ∈ near ∨ v ∈ far

namespace Frontier

variable {start node : String} {unseen : Std.HashSet String} {n : Nat} {near far : List String}

/-- When all of the nearer nodes are done, the further ones are the nearest. -/
theorem turn (h : Frontier next start unseen n [] far) :
    Frontier next start unseen (n + 1) far [] := by
  refine ⟨Nat.succ_pos n, h.farLeads, by simp, fun v m hv hm hway => ?_, ?_⟩
  · obtain ⟨hle, hne⟩ := h.least v m hv hm hway
    have hlt : n < m := lt_of_le_of_ne hle fun heq => by simpa using hne heq.symm
    refine ⟨hlt, fun heq => ?_⟩
    subst heq
    cases hway with
    | @tail _ _ u _ way edge =>
      -- the node in front of `v` is as near as the nodes that are done, so it was seen
      have hseen : unseen.contains u = false := by
        rw [← Bool.not_eq_true]
        intro hu
        simpa using (h.least u n hu h.positive way).2 rfl
      simpa using h.closed u v n h.positive way hseen edge hv
  · intro u v m hm hway hu hv hunseen
    exact Or.inl (by simpa using h.closed u v m hm hway hu hv hunseen)

theorem skip (h : Frontier next start unseen n (node :: near) far)
    (hseen : ¬ unseen.contains node = true) : Frontier next start unseen n near far := by
  have hother : ∀ v, unseen.contains v = true → v ≠ node := by
    rintro v hv rfl
    exact hseen hv
  refine ⟨h.positive, fun v hv => h.nearLeads v (by simp [hv]), h.farLeads, ?_, ?_⟩
  · intro v m hv hm hway
    obtain ⟨hle, heq⟩ := h.least v m hv hm hway
    exact ⟨hle, fun hmn => (List.mem_cons.mp (heq hmn)).resolve_left (hother v hv)⟩
  · intro u v m hm hway hu hv hunseen
    exact (h.closed u v m hm hway hu hv hunseen).imp_left fun hmem =>
      (List.mem_cons.mp hmem).resolve_left (hother v hunseen)

theorem take (h : Frontier next start unseen n (node :: near) far) :
    Frontier next start (unseen.erase node) n near
      (far ++ (next node).filter (unseen.erase node).contains) := by
  refine ⟨h.positive, fun v hv => h.nearLeads v (by simp [hv]), ?_, ?_, ?_⟩
  · intro v hv
    rcases List.mem_append.mp hv with hv | hv
    · exact h.farLeads v hv
    · exact .tail (h.nearLeads node (by simp)) (List.mem_filter.mp hv).1
  · intro v m hv hm hway
    obtain ⟨hne, hunseen⟩ := (contains_erase_iff _ _ _).mp hv
    obtain ⟨hle, heq⟩ := h.least v m hunseen hm hway
    exact ⟨hle, fun hmn => (List.mem_cons.mp (heq hmn)).resolve_left hne⟩
  · intro u v m hm hway hu hv hrest
    obtain ⟨hne, hunseen⟩ := (contains_erase_iff _ _ _).mp hrest
    by_cases hnode : u = node
    · subst hnode
      exact Or.inr (List.mem_append_right _ (List.mem_filter.mpr ⟨hv, hrest⟩))
    · have hseen : unseen.contains u = false := by
        rw [← Bool.not_eq_true] at hu ⊢
        exact fun hcontains => hu ((contains_erase_iff _ _ _).mpr ⟨hnode, hcontains⟩)
      rcases h.closed u v m hm hway hseen hv hunseen with hmem | hmem
      · exact Or.inl ((List.mem_cons.mp hmem).resolve_left hne)
      · exact Or.inr (List.mem_append_left _ hmem)

theorem front {queue : List String} (h : Frontier next start unseen n near far)
    (hqueue : near ++ far = node :: queue) :
    ∃ n near far, queue = near ++ far ∧ Frontier next start unseen n (node :: near) far := by
  cases near with
  | nil =>
    rw [List.nil_append] at hqueue
    subst hqueue
    exact ⟨n + 1, queue, [], by simp, h.turn⟩
  | cons first near =>
    obtain ⟨rfl, rfl⟩ := List.cons.inj hqueue
    exact ⟨n, near, far, rfl, h⟩

theorem transGen {v : String} (h : Frontier next start unseen n near far)
    (hv : v ∈ near ++ far) : TransGen (fun a b => b ∈ next a) start v := by
  obtain ⟨m, hway⟩ : ∃ m, Leads (fun a b => b ∈ next a) (m + 1) start v := by
    rcases List.mem_append.mp hv with hv | hv
    · exact ⟨n - 1, by rw [Nat.sub_add_cancel h.positive]; exact h.nearLeads v hv⟩
    · exact ⟨n, h.farLeads v hv⟩
  cases hway with
  | tail way edge => exact .tail' way.reflTransGen edge

/-- What a walk is going to list is not nearer than the front of its queue. -/
theorem le_distance {v : String} (h : Frontier next start unseen n near far)
    (hv : v ∈ walkQueue next unseen (near ++ far)) :
    n ≤ distance (fun a b => b ∈ next a) start v := by
  obtain ⟨first, hfirst, hpath⟩ := reachable_of_mem_walkQueue hv
  have hways := exists_leads ((h.transGen hfirst).trans_left hpath)
  obtain ⟨hpos, hway⟩ := Nat.sInf_mem hways
  exact (h.least v _ (unseen_of_mem_walkQueue hv) hpos hway).1

/-- The front of a queue is as far as the queue says, if it was not seen before. -/
theorem distance_front (h : Frontier next start unseen n (node :: near) far)
    (hunseen : unseen.contains node = true) :
    distance (fun a b => b ∈ next a) start node = n :=
  distance_eq h.positive (h.nearLeads node (by simp)) fun m hm hway =>
    (h.least node m hunseen hm hway).1

/-- A walk lists the nearest nodes first. -/
theorem sorted_walkQueue {queue : List String} (h : Frontier next start unseen n near far)
    (hqueue : near ++ far = queue) :
    (walkQueue next unseen queue).Pairwise fun u v =>
      distance (fun a b => b ∈ next a) start u ≤ distance (fun a b => b ∈ next a) start v := by
  -- `near` and `far` cut the queue anew at every step, so both vary with it
  fun_induction walkQueue next unseen queue generalizing n near far with
  | case1 unseen => exact .nil
  | case2 unseen node queue hu rest =>
    rename_i ih
    obtain ⟨n', near', far', rfl, hfront⟩ := h.front hqueue
    have htaken := hfront.take
    have hrest := (List.append_assoc near' far' ((next node).filter rest.contains)).symm
    refine List.pairwise_cons.mpr ⟨fun v hv => ?_, ih htaken hrest⟩
    rw [hfront.distance_front hu]
    rw [← hrest] at hv
    exact htaken.le_distance hv
  | case3 unseen node queue hu ih =>
    obtain ⟨n', near', far', rfl, hfront⟩ := h.front hqueue
    exact ih (hfront.skip hu) rfl

end Frontier

/-! ### Lists of what is reachable -/

/-- The nodes that one or more edges lead to, each of them once, the nearest first. -/
structure Reachable (related : String → String → Prop) (start : String) (nodes : List String) :
    Prop where
  nodup : nodes.Nodup
  mem_iff : ∀ node, node ∈ nodes ↔ TransGen related start node
  nearestFirst : nodes.Pairwise fun u v => distance related start u ≤ distance related start v

theorem reachable_walk {g : Graph} (h : ∀ a, ∀ b ∈ next a, b ∈ g.nodes) (start : String) :
    Reachable (fun a b => b ∈ next a) start (walk next g.nodeSet (next start) []) := by
  have hunseen {a b : String} (hb : b ∈ next a) : g.nodeSet.contains b = true :=
    (contains_nodeSet g b).mpr (h a b hb)
  have hbegin : Frontier next start g.nodeSet 1 (next start) [] := by
    refine ⟨Nat.one_pos, fun v hv => .tail (.refl start) hv, by simp, fun v m _ hm hway => ?_, ?_⟩
    · refine ⟨hm, fun hone => ?_⟩
      subst hone
      cases hway with
      | tail way edge =>
        cases way
        exact edge
    · -- nothing that an edge leads to was seen yet
      intro u v m hm hway hseen
      cases hway with
      | refl => exact absurd hm (lt_irrefl 0)
      | tail way edge =>
        rw [hunseen edge] at hseen
        cases hseen
  refine ⟨?_, mem_walk_iff h start, ?_⟩
  · rw [walk_eq_walkQueue]
    exact nodup_walkQueue _ _
  · rw [walk_eq_walkQueue]
    exact hbegin.sorted_walkQueue (by simp)

/-- All that depends on a node, directly or through others, the nearest first. -/
theorem reachable_allDependents {g : Graph} (h : g.WellFormed) (start : String) :
    Reachable (fun dependency dependent => g.DependsOn dependent dependency) start
      (g.allDependents start) := by
  have hedges : (fun dependency dependent => g.DependsOn dependent dependency) =
      fun a b => b ∈ g.children a := by
    funext a b
    exact propext (h.mirrored b a).symm
  rw [hedges]
  apply reachable_walk
  intro a b hb
  exact (h.contains_iff b).mp (h.known _ _ ((h.mirrored b a).mp hb)).1

/-- All that a node depends on, directly or through others, the nearest first. -/
theorem reachable_allDependencies {g : Graph} (h : g.WellFormed) (start : String) :
    Reachable g.DependsOn start (g.allDependencies start) := by
  apply reachable_walk
  intro a b hb
  exact (h.contains_iff b).mp (h.known _ _ hb).2

/-- Of a graph made by any edits and any name, the dependents are listed and the dependencies: all
that can be reached along the edges, each node once, the nearest first. The name itself is among
them exactly if it lies on a cycle, and one name is a dependent of another exactly if that one is a
dependency of it. -/
theorem reachable_ofEdits (edits : List Edit) (start : String) :
    let g := ofEdits edits
    Reachable (fun dependency dependent => g.DependsOn dependent dependency) start
      (g.allDependents start) ∧
    Reachable g.DependsOn start (g.allDependencies start) ∧
    (start ∈ g.allDependents start ↔ ∃ path, g.Closed path ∧ start ∈ path) ∧
    (start ∈ g.allDependencies start ↔ ∃ path, g.Closed path ∧ start ∈ path) ∧
    ∀ other, other ∈ g.allDependents start ↔ start ∈ g.allDependencies other := by
  have h := wellFormed_ofEdits edits
  have hdependencies := reachable_allDependencies h
  refine ⟨reachable_allDependents h start, hdependencies start, ?_, ?_, fun other => ?_⟩
  · rw [mem_allDependents h, exists_closed_iff]
  · rw [(hdependencies start).mem_iff, exists_closed_iff]
  · rw [mem_allDependents h, (hdependencies other).mem_iff]

/-- Both `b` and `c` are one edge away from `a`, and a cycle leads back to it. -/
example :
    let g := ofEdits [.node "a", .node "b", .node "c", .edge "a" "b", .edge "b" "c", .edge "c" "a",
      .edge "a" "c"]
    g.allDependencies "a" = ["b", "c", "a"] ∧ g.allDependents "a" = ["c", "a", "b"] := by
  cbv

end QueryBuild.Graph

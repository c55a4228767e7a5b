import Mathlib.Data.List.Chain
import Mathlib.Data.List.Forall2
import QueryBuild.Graph.Order
import QueryBuild.Proofs.Graph.Edges
/-!
# What a depth-first search keeps

At every moment of a search the finished nodes are the listed ones, each behind what it depends
on; the nodes in progress are those on the stack, each a dependency of the one below it; and every
dependency of a node on the stack is finished, is still to be visited, or lies right above it.
Nothing that a search looks up in a well-formed graph is missing.
-/

namespace QueryBuild.Graph

/-- The mark of a node, if it has a position that is marked. -/
def Search.mark? (g : Graph) (s : Search) (node : String) : Option Visit :=
  g.index[node]?.bind fun position => s.visits[position]?

/-- Each member of a list stands behind everything that it depends on. -/
def Respects (g : Graph) (order : List String) : Prop :=
  ∀ before node after, order = before ++ node :: after →
    ∀ dependency, g.DependsOn node dependency → dependency ∈ before

/-- A path of dependencies back to its start that meets no other node twice. -/
def Closed (g : Graph) (path : List String) : Prop :=
  ∃ node between, path = node :: (between ++ [node]) ∧ (node :: between).Nodup ∧
    path.IsChain g.DependsOn

/-- The frames of a stack belong to some nodes, and all that those nodes depend on is accounted
for; `above` is the node of the frame above. -/
inductive Stacked (g : Graph) (s : Search) : Option String → List Frame → List String → Prop
  | nil (above : Option String) : Stacked g s above [] []
  | cons {above : Option String} {position : Nat} {dependencies : List String} {node : String}
      {stack : List Frame} {nodes : List String}
      (held : g.nodes[position]? = some node)
      (left : ∀ d ∈ dependencies, g.DependsOn node d)
      (chained : ∀ d, above = some d → g.DependsOn node d)
      (covered : ∀ d, g.DependsOn node d →
        s.mark? g d = some .finished ∨ d ∈ dependencies ∨ above = some d)
      (below : Stacked g s (some node) stack nodes) :
      Stacked g s above ((position, dependencies) :: stack) (node :: nodes)

/-- What holds of a search and its stack, whose frames belong to the given nodes. -/
structure Search.Consistent (g : Graph) (s : Search) (stack : List Frame)
    (nodes : List String) : Prop where
  size : s.visits.size = g.nodes.size
  listed : ∀ node, node ∈ s.order.toList ↔ s.mark? g node = some .finished
  nodup : s.order.toList.Nodup
  respects : g.Respects s.order.toList
  active : ∀ node, node ∈ nodes ↔ s.mark? g node = some .inProgress
  distinct : nodes.Nodup
  stacked : Stacked g s none stack nodes

/-! ### Marks -/

private theorem mark?_set {g : Graph} (h : g.WellFormed) (s : Search)
    (hs : s.visits.size = g.nodes.size) {position : Nat} {node : String}
    (hp : g.nodes[position]? = some node) (v : Visit) (other : String) :
    (g.index[other]?.bind fun q => (s.visits.setIfInBounds position v)[q]?) =
      if other = node then some v else s.mark? g other := by
  have hlt : position < s.visits.size := by
    rw [hs]
    exact (Array.getElem?_eq_some_iff.mp hp).1
  by_cases ho : other = node
  · subst ho
    rw [if_pos rfl, (h.index_iff _ _).mpr hp]
    simp [hlt]
  · rw [if_neg ho, Search.mark?]
    cases hi : g.index[other]? with
    | none => rfl
    | some q =>
      have hq : position ≠ q := by
        intro heq
        subst heq
        have hq := (h.index_iff _ _).mp hi
        exact ho (Option.some.inj (hq.symm.trans hp))
      simp [Array.getElem?_setIfInBounds, hq]

theorem mark?_finish {g : Graph} (h : g.WellFormed) (s : Search)
    (hs : s.visits.size = g.nodes.size) {position : Nat} {node : String}
    (hp : g.nodes[position]? = some node) (other : String) :
    (s.finish position node).mark? g other =
      if other = node then some .finished else s.mark? g other :=
  mark?_set h s hs hp .finished other

theorem mark?_enter {g : Graph} (h : g.WellFormed) (s : Search)
    (hs : s.visits.size = g.nodes.size) {position : Nat} {node : String}
    (hp : g.nodes[position]? = some node) (other : String) :
    (s.enter position).mark? g other =
      if other = node then some .inProgress else s.mark? g other :=
  mark?_set h s hs hp .inProgress other

/-- Every node has a mark. -/
theorem exists_mark {g : Graph} (h : g.WellFormed) (s : Search)
    (hs : s.visits.size = g.nodes.size) {node : String} (hn : g.contains node = true) :
    ∃ position v, g.index[node]? = some position ∧ g.nodes[position]? = some node ∧
      s.visits[position]? = some v ∧ s.mark? g node = some v := by
  obtain ⟨position, hp⟩ := Array.mem_iff_getElem?.mp ((h.contains_iff node).mp hn)
  have hi := (h.index_iff node position).mpr hp
  have hlt : position < s.visits.size := by
    rw [hs]
    exact (Array.getElem?_eq_some_iff.mp hp).1
  refine ⟨position, s.visits[position], hi, hp, Array.getElem?_eq_getElem hlt, ?_⟩
  rw [Search.mark?, hi]
  exact Array.getElem?_eq_getElem hlt

/-! ### Stacks -/

private theorem Stacked.mono {g : Graph} {s s' : Search} {above : Option String}
    {stack : List Frame} {nodes : List String} (h : Stacked g s above stack nodes)
    (hf : ∀ d, s.mark? g d = some .finished → s'.mark? g d = some .finished) :
    Stacked g s' above stack nodes := by
  induction h with
  | nil above => exact .nil above
  | cons held left chained covered _ ih =>
    exact .cons held left chained (fun d hd => (covered d hd).imp_left (hf d)) ih

/-- The frame below a node that is finished has nothing above it any more. -/
private theorem Stacked.uncover {g : Graph} {s : Search} {node : String}
    {stack : List Frame} {nodes : List String} (h : Stacked g s (some node) stack nodes)
    (hf : s.mark? g node = some .finished) : Stacked g s none stack nodes := by
  cases h with
  | nil => exact .nil none
  | cons held left chained covered below =>
    refine .cons held left (by simp) (fun d hd => ?_) below
    rcases covered d hd with hd | hd | hd
    · exact Or.inl hd
    · exact Or.inr (Or.inl hd)
    · cases hd
      exact Or.inl hf

private theorem Stacked.positions {g : Graph} {s : Search} {above : Option String}
    {stack : List Frame} {nodes : List String} (h : Stacked g s above stack nodes) :
    List.Forall₂ (fun position node => g.nodes[position]? = some node)
      (stack.map Prod.fst) nodes := by
  induction h with
  | nil => exact .nil
  | cons held _ _ _ _ ih => exact .cons held ih

/-- Each node on the stack is a dependency of the one below it. -/
private theorem Stacked.isChain {g : Graph} {s : Search} {above : Option String}
    {stack : List Frame} {nodes : List String} (h : Stacked g s above stack nodes) :
    nodes.IsChain fun upper lower => g.DependsOn lower upper := by
  induction h with
  | nil => exact .nil
  | cons _ _ _ _ below ih =>
    cases below with
    | nil => exact .singleton _
    | cons _ _ chained _ _ => exact List.isChain_cons_cons.mpr ⟨chained _ rfl, ih⟩

/-! ### Closing a cycle -/

private theorem mapM_of_forall₂ {α β : Type} {f : α → Option β} {xs : List α} {ys : List β}
    (h : List.Forall₂ (fun x y => f x = some y) xs ys) : xs.mapM f = some ys := by
  induction h with
  | nil => rfl
  | cons hxy _ ih => simp [List.mapM_cons, hxy, ih]

/-- A list that runs beside another one is cut at the place where the other one is cut. -/
private theorem forall₂_split {α β : Type} {R : α → β → Prop} {xs : List α} {front back : List β}
    {b : β} (h : List.Forall₂ R xs (front ++ b :: back)) :
    ∃ before a after, xs = before ++ a :: after ∧ List.Forall₂ R before front ∧ R a b ∧
      List.Forall₂ R after back := by
  obtain ⟨a, after, hab, hafter, hdrop⟩ :=
    List.forall₂_cons_right_iff.mp (List.forall₂_drop_append xs front (b :: back) h)
  refine ⟨xs.take front.length, a, after, ?_, List.forall₂_take_append xs front (b :: back) h, hab,
    hafter⟩
  rw [← hdrop, List.take_append_drop]

private theorem drop_findIdx? {before after : List Nat} {position : Nat}
    (h : position ∉ before) :
    (before ++ position :: after).drop
        (((before ++ position :: after).findIdx? (· == position)).getD 0) =
      position :: after := by
  have hnone : before.findIdx? (· == position) = none := by
    rw [List.findIdx?_eq_none_iff]
    intro other hother
    exact beq_false_of_ne fun heq => h (heq ▸ hother)
  rw [List.findIdx?_append, hnone, List.findIdx?_cons, beq_self_eq_true, if_pos rfl]
  simp

/-- At a node that is on the stack once, a search stops with the nodes from there up to the top, and
that node again. -/
theorem close_eq {g : Graph} (h : g.WellFormed) {s : Search} {above : Option String}
    {stack : List Frame} {upper lower : List String} {node : String}
    (hs : Stacked g s above stack (upper ++ node :: lower)) (hnot : node ∉ lower) {position : Nat}
    (hp : g.nodes[position]? = some node) :
    g.close stack position = .cyclic ⟨node :: upper.reverse ++ [node]⟩ := by
  obtain ⟨newer, q, older, hstack, hnewer, hq, holder⟩ := forall₂_split hs.positions
  have hqp : q = position :=
    Option.some.inj (((h.index_iff _ _).mpr hq).symm.trans ((h.index_iff _ _).mpr hp))
  subst hqp
  have hfirst : q ∉ older.reverse := by
    rw [List.mem_reverse]
    intro hmem
    obtain ⟨early, late, rfl⟩ := List.append_of_mem hmem
    obtain ⟨front, other, back, rfl, -, hheld, -⟩ := forall₂_split holder.flip
    cases hheld.symm.trans hp
    exact hnot (by simp)
  have hpath : (stack.map Prod.fst).reverse = older.reverse ++ q :: newer.reverse := by
    rw [hstack, List.reverse_append, List.reverse_cons, List.append_assoc, List.singleton_append]
  have hnames : List.Forall₂ (fun position node => g.nodes[position]? = some node)
      (q :: newer.reverse ++ [q]) (node :: upper.reverse ++ [node]) :=
    .cons hp (List.rel_append (List.forall₂_reverse_iff.mpr hnewer) (.cons hp .nil))
  rw [close, hpath, drop_findIdx? hfirst, mapM_of_forall₂ hnames]

/-- A node on the stack on which the topmost one depends closes a cycle. -/
theorem close_of_mem {g : Graph} (h : g.WellFormed) {s : Search} {above : Option String}
    {stack : List Frame} {nodes : List String} (hs : Stacked g s above stack nodes)
    (hd : nodes.Nodup)
    {top node : String} (htop : nodes.head? = some top) (hdep : g.DependsOn top node)
    (hmem : node ∈ nodes) {position : Nat} (hp : g.nodes[position]? = some node) :
    ∃ path, g.close stack position = .cyclic ⟨path⟩ ∧ g.Closed path := by
  obtain ⟨upper, lower, rfl, hnot⟩ := List.eq_append_cons_of_mem hmem
  have hlower : node ∉ lower := (List.nodup_cons.mp (List.nodup_append.mp hd).2.1).1
  refine ⟨node :: upper.reverse ++ [node], close_eq h hs hlower hp, node, upper.reverse, rfl,
    ?_, ?_⟩
  · have hupper : upper.Nodup := (List.nodup_append.mp hd).1
    exact List.nodup_cons.mpr ⟨by simpa using hnot, List.nodup_reverse.mpr hupper⟩
  · have hsplit : upper ++ node :: lower = (upper ++ [node]) ++ lower := by simp
    have hchain : (upper ++ [node]).IsChain fun upper lower => g.DependsOn lower upper :=
      hs.isChain.prefix ⟨lower, hsplit.symm⟩
    have hpath : node :: upper.reverse ++ [node] = (upper ++ [node]).reverse ++ [node] := by simp
    rw [hpath, List.isChain_append]
    refine ⟨List.isChain_reverse.mpr hchain, .singleton node, ?_⟩
    intro last hlast first hfirst
    cases hfirst
    have hhead : (upper ++ node :: lower).head? = some last := by
      rw [List.getLast?_reverse] at hlast
      rw [hsplit, List.head?_append, Option.mem_def.mp hlast]
      rfl
    cases htop.symm.trans hhead
    exact hdep

/-! ### One step of a search -/

theorem Respects.concat {g : Graph} {order : List String} (h : g.Respects order) {node : String}
    (hn : ∀ d, g.DependsOn node d → d ∈ order) : g.Respects (order ++ [node]) := by
  intro before other after heq d hd
  rcases List.eq_nil_or_concat after with rfl | ⟨after, last, rfl⟩
  · obtain ⟨rfl, hlast⟩ := List.append_inj' heq rfl
    cases hlast
    exact hn d hd
  · have hcut : order ++ [node] = (before ++ other :: after) ++ [last] := by simpa using heq
    exact h before other after (List.append_inj' hcut rfl).1 d hd

namespace Search.Consistent

variable {g : Graph} {s : Search}

/-- The topmost node is finished and listed once it has no dependency left. -/
theorem finish (h : g.WellFormed) {position : Nat} {stack : List Frame} {node : String}
    {below : List String} (hc : s.Consistent g ((position, []) :: stack) (node :: below)) :
    (s.finish position node).Consistent g stack below := by
  obtain ⟨hsize, hlisted, hnodup, hrespects, hactive, hdistinct, hstacked⟩ := hc
  cases hstacked with
  | cons hp _ _ covered hbelow =>
  have hmark := mark?_finish h s hsize hp
  have htop : s.mark? g node = some .inProgress := (hactive node).mp (by simp)
  have hnew : node ∉ s.order.toList := by
    intro hm
    cases htop.symm.trans ((hlisted node).mp hm)
  have hdeps : ∀ d, g.DependsOn node d → d ∈ s.order.toList := by
    intro d hd
    rcases covered d hd with hf | hf | hf
    · exact (hlisted d).mpr hf
    · cases hf
    · cases hf
  have hdown : node ∉ below := (List.nodup_cons.mp hdistinct).1
  have horder : (s.finish position node).order.toList = s.order.toList ++ [node] := by
    simp [Search.finish]
  refine ⟨?_, ?_, ?_, ?_, ?_, (List.nodup_cons.mp hdistinct).2, ?_⟩
  · simpa [Search.finish] using hsize
  · intro other
    rw [hmark, horder, List.mem_append, List.mem_singleton, hlisted]
    by_cases ho : other = node <;> simp [ho]
  · rw [horder, List.nodup_append]
    refine ⟨hnodup, List.nodup_singleton node, ?_⟩
    rintro other hother _ hnode rfl
    cases List.mem_singleton.mp hnode
    exact hnew hother
  · rw [horder]
    exact hrespects.concat hdeps
  · intro other
    rw [hmark]
    by_cases ho : other = node
    · simp [ho, hdown]
    · rw [if_neg ho, ← hactive other]
      simp [ho]
  · have hmono : Stacked g (s.finish position node) (some node) stack below := by
      apply hbelow.mono
      intro d hd
      rw [hmark, hd, ite_self]
    apply hmono.uncover
    rw [hmark, if_pos rfl]

theorem skip {position : Nat} {dependency : String} {dependencies : List String}
    {stack : List Frame} {nodes : List String}
    (hc : s.Consistent g ((position, dependency :: dependencies) :: stack) nodes)
    (hf : s.mark? g dependency = some .finished) :
    s.Consistent g ((position, dependencies) :: stack) nodes := by
  obtain ⟨hsize, hlisted, hnodup, hrespects, hactive, hdistinct, hstacked⟩ := hc
  refine ⟨hsize, hlisted, hnodup, hrespects, hactive, hdistinct, ?_⟩
  cases hstacked with
  | cons held left _ covered below =>
    refine .cons held (fun d hd => left d (List.mem_cons_of_mem _ hd)) (by simp)
      (fun d hd => ?_) below
    rcases covered d hd with hd | hd | hd
    · exact Or.inl hd
    · rcases List.mem_cons.mp hd with rfl | hd
      · exact Or.inl hf
      · exact Or.inr (Or.inl hd)
    · cases hd

/-- A node that was not visited is put on the stack with all its dependencies left. -/
theorem enter (h : g.WellFormed) {stack stack' : List Frame} {nodes : List String}
    (hc : s.Consistent g stack nodes) {position : Nat} {node : String}
    (hp : g.nodes[position]? = some node) (hu : s.mark? g node = some .unvisited)
    (hs : Stacked g s (some node) stack' nodes) :
    (s.enter position).Consistent g ((position, g.parents node) :: stack') (node :: nodes) := by
  have hmark := mark?_enter h s hc.size hp
  have hnot : node ∉ nodes := by
    intro hm
    cases hu.symm.trans ((hc.active node).mp hm)
  refine ⟨?_, ?_, hc.nodup, hc.respects, ?_, List.nodup_cons.mpr ⟨hnot, hc.distinct⟩, ?_⟩
  · simpa [Search.enter] using hc.size
  · intro other
    rw [hmark]
    by_cases ho : other = node
    · subst ho
      have hnew : other ∉ s.order.toList := fun hm => by cases hu.symm.trans ((hc.listed _).mp hm)
      simp [Search.enter, hnew]
    · rw [if_neg ho]
      exact hc.listed other
  · intro other
    rw [hmark, List.mem_cons, hc.active]
    by_cases ho : other = node <;> simp [ho]
  · apply Stacked.cons hp (fun d hd => hd) (by simp) (fun d hd => Or.inr (Or.inl hd))
    apply hs.mono
    intro d hd
    have hne : d ≠ node := by
      intro heq
      subst heq
      cases hu.symm.trans hd
    rw [hmark, if_neg hne, hd]

end Search.Consistent

/-- The frame below a dependency that is entered has one dependency less to visit. -/
theorem Stacked.descend {g : Graph} {s : Search} {position : Nat} {dependency : String}
    {dependencies : List String} {stack : List Frame} {nodes : List String}
    (h : Stacked g s none ((position, dependency :: dependencies) :: stack) nodes) :
    Stacked g s (some dependency) ((position, dependencies) :: stack) nodes := by
  cases h with
  | cons held left _ covered below =>
    refine .cons held (fun d hd => left d (List.mem_cons_of_mem _ hd)) ?_ (fun d hd => ?_) below
    · intro d hd
      cases hd
      exact left dependency (by simp)
    · rcases covered d hd with hd | hd | hd
      · exact Or.inl hd
      · rcases List.mem_cons.mp hd with rfl | hd
        · exact Or.inr (Or.inr rfl)
        · exact Or.inr (Or.inl hd)
      · cases hd

end QueryBuild.Graph

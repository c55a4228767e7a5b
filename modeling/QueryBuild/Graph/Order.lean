import QueryBuild.Graph.Basic
/-!
# Build orders

A depth-first search over the nodes in the order in which they were found, dependencies in name
order. A node is listed once all it depends on is listed. Meeting a node that is still on the
stack closes a cycle, and then there is no order at all.

The search marks nodes by their positions. A name without a position and a position without a node
stop it; no graph whose edges join known nodes leads there.
-/

namespace QueryBuild.Graph

/-- How far a search has come with a node. -/
inductive Visit where
  | unvisited
  | inProgress
  | finished
deriving DecidableEq, Inhabited

/-- What a search has seen so far: the mark of every position and the finished nodes in order. -/
structure Search where
  visits : Array Visit
  order : Array String

/-- A node on the stack, by its position, with the dependencies that are left to visit. -/
abbrev Frame := Nat × List String

inductive Stop where
  /-- A dependency is still in progress. -/
  | cyclic (cycle : Cycle)
  /-- A name without a position or a position without a node was looked up. -/
  | missing
deriving DecidableEq, Inhabited

/-- The steps that a stack will take if it grows no more. -/
def pending (stack : List Frame) : Nat :=
  stack.foldr (fun frame steps => frame.2.length + 1 + steps) 0

/-- The frame of the node at a position, with all its dependencies left. -/
def frame? (g : Graph) (position : Nat) : Option Frame :=
  g.nodes[position]?.map fun node => (position, g.parents node)

/-- Stops at a dependency in progress, with the path on the stack from it back to itself. -/
def close (g : Graph) (stack : List Frame) (position : Nat) : Stop :=
  let path := (stack.map Prod.fst).reverse
  let start := (path.findIdx? (· == position)).getD 0
  match (path.drop start ++ [position]).mapM (g.nodes[·]?) with
  | some names => .cyclic ⟨names⟩
  | none => .missing

def Search.finish (s : Search) (position : Nat) (node : String) : Search :=
  ⟨s.visits.setIfInBounds position .finished, s.order.push node⟩

def Search.enter (s : Search) (position : Nat) : Search :=
  { s with visits := s.visits.setIfInBounds position .inProgress }

def Search.remaining (s : Search) : Nat :=
  s.visits.count .unvisited

theorem Search.remaining_enter_lt (s : Search) (position : Nat)
    (h : s.visits[position]? = some .unvisited) :
    (s.enter position).remaining < s.remaining := by
  obtain ⟨hlt, hget⟩ := Array.getElem?_eq_some_iff.mp h
  have hmem : Visit.unvisited ∈ s.visits := hget ▸ Array.getElem_mem hlt
  have hpos : 0 < s.visits.count .unvisited := Array.count_pos_iff.mpr hmem
  simp only [remaining, enter, Array.setIfInBounds, hlt, dif_pos, Array.count_set, hget]
  simp
  omega

theorem Search.remaining_finish_le (s : Search) (position : Nat) (node : String) :
    (s.finish position node).remaining ≤ s.remaining := by
  simp only [remaining, finish, Array.setIfInBounds]
  split
  · simp only [Array.count_set]
    simp
  · exact Nat.le_refl _

/-- Runs a search until its stack, the deepest node first, is empty. -/
def search (g : Graph) (s : Search) (stack : List Frame) : Except Stop Search :=
  match stack with
  | [] => .ok s
  | (position, []) :: rest =>
    match g.nodes[position]? with
    | none => .error .missing
    | some node => search g (s.finish position node) rest
  | (node, dependency :: dependencies) :: rest =>
    match g.index[dependency]? with
    | none => .error .missing
    | some position =>
      match _h : s.visits[position]? with
      | none => .error .missing
      | some .finished => search g s ((node, dependencies) :: rest)
      -- The dependency lies below on the stack, so the path from it to the top closes a cycle.
      | some .inProgress => .error (g.close ((node, dependencies) :: rest) position)
      | some .unvisited =>
        match g.frame? position with
        | none => .error .missing
        | some frame => search g (s.enter position) (frame :: (node, dependencies) :: rest)
termination_by (s.remaining, pending stack)
decreasing_by
  -- Entering a node leaves fewer to visit. No other step leaves more, and each lowers `pending`.
  · rcases Nat.lt_or_eq_of_le (s.remaining_finish_le position node) with h | h
    · exact Prod.Lex.left _ _ h
    · rw [h]
      exact Prod.Lex.right _ (by simp [pending])
  · exact Prod.Lex.right _ (by simp [pending])
  · exact Prod.Lex.left _ _ (s.remaining_enter_lt _ _h)

/-- Searches from the node at one more position, unless it was visited. -/
def searchFrom (g : Graph) (s : Search) (root : Nat) : Except Stop Search :=
  match s.visits[root]? with
  | none => .error .missing
  | some .unvisited =>
    match g.frame? root with
    | none => .error .missing
    | some frame => search g (s.enter root) [frame]
  | some _ => .ok s

def searchAll (g : Graph) : Except Stop Search :=
  (List.range g.nodes.size).foldlM (searchFrom g) ⟨.replicate g.nodes.size .unvisited, #[]⟩

/-- An order in which every dependency stands before its dependents, or a cycle. -/
def resolveOrder (g : Graph) : Except Cycle (List String) :=
  match g.searchAll with
  | .ok s => .ok s.order.toList
  | .error (.cyclic cycle) => .error cycle
  | .error .missing => .error ⟨[]⟩

end QueryBuild.Graph

import QueryBuild.Graph.Basic
/-!
# Transitive dependents and dependencies

A breadth-first walk along one direction of the edges. It starts with the neighbours of a node, so
the node itself is listed only if a cycle leads back to it.
-/

namespace QueryBuild.Graph

/-- The nodes met by a walk in the order of their distance. `unseen` holds the nodes not met yet,
`queue` those to look at now, and `later`, reversed, those to look at after them. -/
def walk (next : String → List String) (unseen : Std.HashSet String)
    (queue later : List String) : List String :=
  match queue with
  | node :: queue =>
    if _h : unseen.contains node then
      let rest := unseen.erase node
      node :: walk next rest queue (((next node).filter rest.contains).reverse ++ later)
    else walk next unseen queue later
  | [] =>
    -- Everything at this distance was looked at; what was met on the way is one step farther.
    match turned : later.reverse with
    | [] => []
    | node :: queue =>
      if _h : unseen.contains node then
        let rest := unseen.erase node
        node :: walk next rest queue ((next node).filter rest.contains).reverse
      else walk next unseen queue []
termination_by (unseen.size, queue.length + later.length)
decreasing_by
  · exact Prod.Lex.left _ _ (size_erase_lt _ _ _h)
  · exact Prod.Lex.right _ (by simp)
  · exact Prod.Lex.left _ _ (size_erase_lt _ _ _h)
  · have := congrArg List.length turned
    simp only [List.length_reverse, List.length_cons] at this
    exact Prod.Lex.right _ (by simp; omega)

/-- Every node that cannot be built without a node, the nearest first. -/
def allDependents (g : Graph) (node : String) : List String :=
  walk g.children g.nodeSet (g.children node) []

/-- Every node that a node needs, the nearest first. -/
def allDependencies (g : Graph) (node : String) : List String :=
  walk g.parents g.nodeSet (g.parents node) []

end QueryBuild.Graph

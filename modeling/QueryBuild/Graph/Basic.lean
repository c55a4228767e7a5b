import QueryBuild.Names
import Std.Data.HashMap
import Std.Data.HashSet
/-!
# Dependency graphs

Named nodes in the order in which they were found, and edges between a node and what it depends
on. Edges are kept in both directions, each list in increasing order, and only ever join known
nodes.
-/

namespace QueryBuild

structure Graph where
  /-- The nodes in the order in which they were added. -/
  nodes : Array String
  index : Std.HashMap String Nat
  /-- What each node depends on. -/
  parentLists : Std.HashMap String (List String)
  /-- What depends on each node. -/
  childLists : Std.HashMap String (List String)

/-- A closed path of dependencies: its first and its last entry are the same node. -/
structure Cycle where
  path : List String
deriving DecidableEq, Inhabited

namespace Cycle

/-- The node at which the cycle was met. -/
def unit (c : Cycle) : String :=
  c.path.headD ""

def text (c : Cycle) : String :=
  "cyclic dependency detected: " ++ " -> ".intercalate c.path

end Cycle

namespace Graph

def empty : Graph :=
  ⟨#[], ∅, ∅, ∅⟩

instance : Inhabited Graph := ⟨empty⟩

def contains (g : Graph) (node : String) : Bool :=
  g.index.contains node

/-- What a node depends on, in increasing order. -/
def parents (g : Graph) (node : String) : List String :=
  g.parentLists.getD node []

/-- What depends on a node, in increasing order. -/
def children (g : Graph) (node : String) : List String :=
  g.childLists.getD node []

/-- The graph with a node added at the end, unless it is known. -/
def addNode (g : Graph) (node : String) : Graph :=
  if g.contains node then g
  else { g with nodes := g.nodes.push node, index := g.index.insert node g.nodes.size }

/-- Whether an edge may be added: both ends are known and the edge is new. -/
def canAddEdge (g : Graph) (dependent dependency : String) : Bool :=
  g.contains dependent && g.contains dependency && !(g.parents dependent).contains dependency

/-- The graph with an edge from a dependent to its dependency, if it may be added. -/
def addEdge (g : Graph) (dependent dependency : String) : Graph :=
  if g.canAddEdge dependent dependency then
    { g with
      parentLists := g.parentLists.insert dependent
        (Names.insert dependency (g.parents dependent))
      childLists := g.childLists.insert dependency
        (Names.insert dependent (g.children dependency)) }
  else g

/-- The graph of some nodes and of those pairs of a dependent and its dependency whose ends are
known. -/
def ofEdges (nodes : List String) (edges : List (String × String)) : Graph :=
  edges.foldl (fun g edge => g.addEdge edge.1 edge.2) (nodes.foldl addNode empty)

def size (g : Graph) : Nat :=
  g.nodes.size

def edgeCount (g : Graph) : Nat :=
  g.nodes.foldl (fun total node => total + (g.parents node).length) 0

def nodeSet (g : Graph) : Std.HashSet String :=
  g.nodes.foldl (fun set node => set.insert node) ∅

theorem size_erase_lt (set : Std.HashSet String) (x : String) (h : set.contains x = true) :
    (set.erase x).size < set.size := by
  have member : x ∈ set := h
  have empty_iff := Std.HashSet.isEmpty_eq_size_eq_zero (m := set)
  have some_iff := Std.HashSet.isEmpty_eq_false_iff_exists_mem (m := set)
  rw [Std.HashSet.size_erase, if_pos member]
  grind

end Graph

end QueryBuild

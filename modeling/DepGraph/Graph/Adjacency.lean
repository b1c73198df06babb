import DepGraph.Graph.Basic
import DepGraph.Graph.DepthFirst

/-!
# The relations of a graph

What a node depends on can be read off the node, in the order in which it was first seen or in the
order of the identifiers, or off the edges. A search over any of them starts from the nodes in the
order of their identifiers.

* `lookup?_of_not_mem`: only nodes have neighbours, so that the search is over a finite relation.
-/

namespace DepGraph.Graph

open DepthFirst

theorem lookup?_of_not_mem {g : Graph} {id : String} (h : id ∉ g.nodeIds) :
    g.lookup? id = none := by
  unfold nodeIds at h
  unfold lookup?
  rw [Std.TreeMap.mem_keys] at h
  exact Std.TreeMap.getElem?_eq_none h

theorem dependencyIds_of_not_mem {g : Graph} {id : String} (h : id ∉ g.nodeIds) :
    g.dependencyIds id = [] := by
  simp [dependencyIds, node?, lookup?_of_not_mem h]

theorem edgesFrom_of_not_mem {g : Graph} {id : String} (h : id ∉ g.nodeIds) :
    g.edgesFrom id = #[] := by
  simp [edgesFrom, lookup?_of_not_mem h]

/-- Identifiers in order. -/
def sortIds (ids : List String) : List String :=
  ids.mergeSort fun a b => (compare a b).isLE

/-- What nodes depend on, as first seen. -/
def firstSeen (g : Graph) : Adjacency where
  keys := g.nodeIds
  next := g.dependencyIds
  next_of_not_mem _ h := dependencyIds_of_not_mem h

/-- What nodes depend on, by identifier. -/
def byId (g : Graph) : Adjacency where
  keys := g.nodeIds
  next id := sortIds (g.dependencyIds id)
  next_of_not_mem _ h := by simp [dependencyIds_of_not_mem h, sortIds]

/-- The ends of the edges. -/
def byEdges (g : Graph) : Adjacency where
  keys := g.nodeIds
  next id := ((g.edgesFrom id).map (·.target)).toList
  next_of_not_mem _ h := by simp [edgesFrom_of_not_mem h]

/-- Do the edges form a cycle? An edge from a node to itself is one. -/
def hasCycle (g : Graph) : Bool :=
  !(DepthFirst.cycles g.byEdges).isEmpty

end DepGraph.Graph

/-!
# Statistics of a graph

The numbers that sum up a graph. A graph keeps the last ones that were computed for it.
-/

namespace DepGraph

/-- A summary of a graph. -/
structure Statistics where
  totalNodes : Nat
  totalEdges : Nat
  maxDepth : Nat
  averageDepth : Float
  cyclicNodes : Nat
  criticalNodes : Nat
  orphanNodes : Nat
  leafNodes : Nat
  /-- The share of the possible edges, from zero to one. -/
  density : Float
  complexity : Float
  deriving Repr

end DepGraph

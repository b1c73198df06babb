import DepGraph.Graph.Basic

/-!
# Summing up a graph

The statistics of a graph: counts over its nodes and edges, the density and a figure for its
complexity.

* `densityOf_eq_zero`: the density of fewer than two nodes is zero.
-/

namespace DepGraph.Graph

/-- The share of the possible edges between different nodes. Loops and edges of several kinds can
make it more than one, which counts as one. -/
def densityOf (nodes edges : Nat) : Float :=
  if nodes ≤ 1 then 0.0
  else
    let possible := nodes.toFloat * (nodes.toFloat - 1.0)
    let ratio := edges.toFloat / possible
    if ratio < 0.0 then 0.0 else if ratio > 1.0 then 1.0 else ratio

/-- A sum per node; there is none without nodes. -/
def perNode (sum nodes : Nat) : Float :=
  if nodes == 0 then 0.0 else sum.toFloat / nodes.toFloat

/-- The number of nodes with a property. -/
def countNodes (g : Graph) (p : Node → Bool) : Nat :=
  g.nodes.countP p

/-- The statistics of a graph. -/
def summarize (g : Graph) : Statistics :=
  let depths := g.nodes.map (·.depth)
  let maxDepth := depths.foldl max 0
  let cyclic := g.countNodes (·.cyclic)
  let density := densityOf g.nodeCount g.edgeCount
  { totalNodes := g.nodeCount
    totalEdges := g.edgeCount
    maxDepth
    averageDepth := perNode (depths.foldl (· + ·) 0) g.nodeCount
    cyclicNodes := cyclic
    criticalNodes := g.countNodes (·.critical)
    orphanNodes := g.countNodes Node.isOrphan
    leafNodes := g.countNodes Node.isLeaf
    density
    complexity := 0.3 * maxDepth.toFloat + 0.3 * perNode g.edgeCount g.nodeCount +
      0.2 * cyclic.toFloat + 0.2 * (density * 100.0) }

/-- The graph with its statistics computed anew. -/
def refreshStatistics (g : Graph) : Graph :=
  { g with statistics := some g.summarize }

theorem densityOf_eq_zero {nodes : Nat} (h : nodes ≤ 1) (edges : Nat) :
    densityOf nodes edges = 0.0 :=
  if_pos h

end DepGraph.Graph

import DepGraph.Decimal.Layout
import DepGraph.Graph.Basic
import DepGraph.Json.Printer

/-!
# Documents

A document is a graph as JSON: when it was made, its nodes, its edges and the statistics that are
known of it.
-/

namespace DepGraph

/-- An object with the given fields. -/
def Json.fields (fields : List (String × Json)) : Json :=
  .object (fields.map fun field => (some field.1, field.2))

namespace Document

/-- A number; JSON has no infinite numbers. -/
def number (x : Float) : Json :=
  if x.isFinite then .number (Decimal.document x) else .null

/-- The form of a point in time. -/
def time (t : Timestamp) : Json :=
  .text t.text

/-- The form of a node. -/
def ofNode (n : Node) : Json :=
  .fields
    [("id", .text n.id), ("name", .text n.name), ("version", .ofOption .text n.version),
      ("kind", .text n.kind.name), ("source", .text n.source),
      ("dependencies", .texts n.dependencies.toList), ("dependents", .texts n.dependents.toList),
      ("size", .ofOption .nat n.size), ("last_modified", .ofOption time n.lastModified),
      ("dep_type", .ofOption (.text ·.name) n.dependencyClass), ("cyclic", .bool n.cyclic),
      ("critical", .bool n.critical), ("depth", .nat n.depth)]

/-- The form of an edge, given that of its weight. -/
def edgeWith (weight : Float → Json) (e : Edge) : Json :=
  .fields
    [("from", .text e.source), ("to", .text e.target), ("kind", .text e.kind.name),
      ("optional", .bool e.optional), ("dynamic", .bool e.dynamic), ("weight", weight e.weight)]

/-- The form of statistics, given that of their numbers. -/
def statisticsWith (number : Float → Json) (s : Statistics) : Json :=
  .fields
    [("total_nodes", .nat s.totalNodes), ("total_edges", .nat s.totalEdges),
      ("max_depth", .nat s.maxDepth), ("average_depth", number s.averageDepth),
      ("cyclic_nodes", .nat s.cyclicNodes), ("critical_nodes", .nat s.criticalNodes),
      ("orphan_nodes", .nat s.orphanNodes), ("leaf_nodes", .nat s.leafNodes),
      ("density", number s.density), ("complexity", number s.complexity)]

/-- The document of a graph. What is not known is left out. -/
def ofGraph (g : Graph) : Json :=
  .fields <|
    [("created_at", time g.createdAt)] ++
      (g.analyzedAt.map fun t => ("analyzed_at", time t)).toList ++
      [("nodes", .array (g.nodes.map ofNode)),
        ("edges", .array (g.sortedEdges.map (edgeWith number)))] ++
      (g.statistics.map fun s => ("stats", statisticsWith number s)).toList

end Document

end DepGraph

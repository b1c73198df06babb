import Std.Data.TreeMap
import DepGraph.Graph.Node
import DepGraph.Graph.Statistics

/-!
# Dependency graphs

Nodes are found by their identifiers, and edges stand in the order in which they were added. Adding
is idempotent: a node that is there stays as it is, and there is one edge of a kind from a node to
another. Both ends of an edge are nodes.

* `node?_addNode`: adding a node changes nothing but the node of its identifier.
* `edges_addEdge`: an edge that is taken goes to the end, and nothing else happens to the edges.
-/

namespace DepGraph

/-- What a graph keeps of a node: the node, how many nodes were there before it, and its outgoing
edges in the order of adding. -/
structure Entry where
  node : Node
  place : Nat
  outgoing : Array Edge := #[]

namespace Entry

/-- What is kept of a node with one more edge out of it. -/
def addOutgoing (entry : Entry) (e : Edge) : Entry :=
  { entry with node := entry.node.addDependency e.target, outgoing := entry.outgoing.push e }

/-- What is kept of a node with one more edge into it. -/
def addIncoming (entry : Entry) (e : Edge) : Entry :=
  { entry with node := entry.node.addDependent e.source }

end Entry

/-- A dependency graph. -/
structure Graph where
  entries : Std.TreeMap String Entry := ∅
  edges : Array Edge := #[]
  createdAt : Timestamp := default
  /-- When the graph was last analyzed. -/
  analyzedAt : Option Timestamp := none
  /-- The statistics that were last computed. -/
  statistics : Option Statistics := none

namespace Graph

/-! ## Looking up -/

/-- What is kept of a node. -/
def lookup? (g : Graph) (id : String) : Option Entry :=
  g.entries[id]?

/-- The node of an identifier. -/
def node? (g : Graph) (id : String) : Option Node :=
  (g.lookup? id).map (·.node)

/-- Is there a node with the identifier? -/
def contains (g : Graph) (id : String) : Bool :=
  g.entries.contains id

/-- The identifiers, in order. -/
def nodeIds (g : Graph) : List String :=
  g.entries.keys

/-- The nodes, by identifier. -/
def nodes (g : Graph) : List Node :=
  g.entries.toList.map (·.2.node)

/-- The number of nodes. -/
def nodeCount (g : Graph) : Nat :=
  g.entries.size

/-- The number of edges. -/
def edgeCount (g : Graph) : Nat :=
  g.edges.size

/-- Are there no nodes? -/
def isEmpty (g : Graph) : Bool :=
  g.nodeCount == 0

/-- The edges out of a node, in the order of adding. -/
def edgesFrom (g : Graph) (id : String) : Array Edge :=
  match g.lookup? id with
  | some entry => entry.outgoing
  | none => #[]

/-- Is there an edge with the identity? -/
def containsEdge (g : Graph) (key : EdgeKey) : Bool :=
  (g.edgesFrom key.source).any fun e => e.target == key.target && e.kind == key.kind

/-- The identifiers of what a node depends on, in the order in which they were first seen. -/
def dependencyIds (g : Graph) (id : String) : List String :=
  match g.node? id with
  | some node => node.dependencies.toList
  | none => []

/-- The nodes that a node depends on. -/
def dependencies (g : Graph) (id : String) : List Node :=
  (g.dependencyIds id).filterMap g.node?

/-- The nodes that depend on a node. -/
def dependents (g : Graph) (id : String) : List Node :=
  match g.node? id with
  | some node => node.dependents.toList.filterMap g.node?
  | none => []

/-- The nodes of a kind. -/
def nodesOfKind (g : Graph) (kind : NodeKind) : List Node :=
  g.nodes.filter (·.kind == kind)

/-! ## Changing -/

/-- Applies a change to the node of an identifier, if there is one. The change keeps the
identifier. -/
def modifyNode (g : Graph) (id : String) (change : Node → Node) : Graph :=
  { g with entries := g.entries.modify id fun entry => { entry with node := change entry.node } }

/-- Adds a node, unless its identifier is taken. -/
def addNode (g : Graph) (node : Node) : Graph :=
  if g.contains node.id then g
  else { g with entries := g.entries.insert node.id ⟨node, g.nodeCount, #[]⟩ }

/-- The place of a node in the order of adding. -/
def place? (g : Graph) (id : String) : Option Nat :=
  (g.lookup? id).map (·.place)

/-- Will the edge be taken? Its ends have to be nodes, and its identity has to be new. -/
def accepts (g : Graph) (e : Edge) : Bool :=
  g.contains e.source && g.contains e.target && !g.containsEdge e.key

/-- Puts an edge into the graph without asking whether it may be taken. -/
def insertEdge (g : Graph) (e : Edge) : Graph :=
  let entries := g.entries.modify e.source (·.addOutgoing e)
  { g with entries := entries.modify e.target (·.addIncoming e), edges := g.edges.push e }

/-- Adds an edge, if it is taken. -/
def addEdge (g : Graph) (e : Edge) : Graph :=
  if g.accepts e then g.insertEdge e else g

/-- Adds a copy of every node and every edge of another graph. The copied nodes forget their
neighbours, which come back with the edges. -/
def merge (g other : Graph) : Graph :=
  let g := other.nodes.foldl (fun g node => g.addNode node.isolated) g
  { other.edges.foldl addEdge g with statistics := none }

/-- Adds an edge and counts it, if it is taken. -/
def addCounting (counted : Graph × Nat) (e : Edge) : Graph × Nat :=
  if counted.1.accepts e then (counted.1.insertEdge e, counted.2 + 1) else counted

/-- The number of edges of another graph that are taken when the graphs are merged. -/
def mergeCount (g other : Graph) : Nat :=
  let g := other.nodes.foldl (fun g node => g.addNode node.isolated) g
  (other.edges.foldl addCounting (g, 0)).2

/-! ## Comparing -/

/-- The identities of the edges, in order. -/
def edgeKeys (g : Graph) : List EdgeKey :=
  (g.edges.toList.map Edge.key).mergeSort EdgeKey.le

/-- The edges in the order of their identities. -/
def sortedEdges (g : Graph) : List Edge :=
  g.edges.toList.mergeSort fun a b => EdgeKey.le a.key b.key

/-- Have the graphs the same identifiers and the same edges, attributes aside? -/
def sameStructure (g other : Graph) : Bool :=
  g.nodeIds == other.nodeIds && g.edgeKeys == other.edgeKeys

/-- The neighbours that nodes name and that are no nodes, each with the node that names it. -/
def danglingReferences (g : Graph) : List (String × String) :=
  g.nodes.flatMap fun node =>
    ((node.dependencies ++ node.dependents).toList.filter (!g.contains ·)).map (node.id, ·)

/-- The bytes of the texts in the graph. -/
def textBytes (g : Graph) : Nat :=
  let withText (bytes : Nat) (text : String) := bytes + text.utf8ByteSize
  let withNode (bytes : Nat) (n : Node) :=
    let own := 2 * n.id.utf8ByteSize + n.name.utf8ByteSize + n.source.utf8ByteSize +
      (n.version.getD "").utf8ByteSize
    n.dependents.foldl withText (n.dependencies.foldl withText (bytes + own))
  g.edges.foldl (fun bytes e => withText (withText bytes e.source) e.target)
    (g.nodes.foldl withNode 0)

/-! ## Lemmas -/

theorem node?_addNode (g : Graph) (node : Node) (id : String) :
    (g.addNode node).node? id =
      if node.id = id ∧ g.contains id = false then some node else g.node? id := by
  unfold addNode
  split
  · next h =>
    rw [if_neg]
    rintro ⟨rfl, h'⟩
    simp_all
  · next h =>
    simp only [node?, lookup?, Std.TreeMap.getElem?_insert, Std.compare_eq_iff_eq]
    by_cases heq : node.id = id
    · subst heq
      simp_all
    · simp [heq]

theorem edges_addNode (g : Graph) (node : Node) : (g.addNode node).edges = g.edges := by
  unfold addNode
  split <;> rfl

theorem edges_addEdge (g : Graph) (e : Edge) :
    (g.addEdge e).edges = if g.accepts e then g.edges.push e else g.edges := by
  unfold addEdge insertEdge
  split <;> rfl

theorem node?_modifyNode (g : Graph) (id other : String) (change : Node → Node) :
    (g.modifyNode id change).node? other =
      if id = other then (g.node? other).map change else g.node? other := by
  simp only [modifyNode, node?, lookup?, Std.TreeMap.getElem?_modify, Std.compare_eq_iff_eq]
  by_cases h : id = other
  · subst h
    simp [Function.comp_def]
  · simp [h]

theorem edges_modifyNode (g : Graph) (id : String) (change : Node → Node) :
    (g.modifyNode id change).edges = g.edges := rfl

end Graph

end DepGraph

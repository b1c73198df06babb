import DepGraph.Graph.Basic

/-!
# Drawings in Mermaid

The names of nodes in such a drawing cannot hold every character, so the nodes are numbered and
their identifiers are labels.

* `quote_not_mem_label`: no label can end its quotes.
-/

namespace DepGraph.Mermaid

/-- The text of a label; quotes in it have a name. -/
def label (text : List Char) : List Char :=
  text.flatMap fun c => if c == '"' then "#quot;".toList else [c]

/-- A line of a drawing. -/
inductive Line where
  | node (number : Nat) (label : String)
  | edge (source : Nat) (dotted : Bool) (kind : EdgeKind) (target : Nat)
  /-- The nodes that are shown as cyclic. -/
  | cyclic (numbers : List Nat)
  deriving Repr, DecidableEq

/-! ## What is drawn -/

/-- The numbers of the nodes, by identifier. -/
def numbering (g : Graph) : Std.TreeMap String Nat :=
  g.nodeIds.zipIdx.foldl (fun numbers entry => numbers.insert entry.1 entry.2) ∅

/-- The line of an edge, if its ends have numbers. -/
def ofEdge? (numbers : Std.TreeMap String Nat) (e : Edge) : Option Line := do
  return .edge (← numbers[e.source]?) (e.optional || e.dynamic) e.kind (← numbers[e.target]?)

/-- The line of the cyclic nodes, if there are any. -/
def cyclicLine (g : Graph) : List Line :=
  match (g.nodes.zipIdx.filter (·.1.cyclic)).map (·.2) with
  | [] => []
  | numbers => [.cyclic numbers]

/-- The lines of a graph: the nodes in order, the edges in order, and the cyclic nodes. -/
def drawingLines (g : Graph) : List Line :=
  (g.nodes.zipIdx.map fun entry => .node entry.2 entry.1.id) ++
    g.sortedEdges.filterMap (ofEdge? (numbering g)) ++ cyclicLine g

/-! ## How it is written -/

/-- The name of a node. -/
def shortName (number : Nat) : List Char :=
  'n' :: (toString number).toList

/-- The arrow of an edge. -/
def arrow (dotted : Bool) : List Char :=
  if dotted then "-.->".toList else "-->".toList

/-- The written form of a line. -/
def Line.render : Line → List Char
  | .node number text =>
    "  ".toList ++ shortName number ++ "[\"".toList ++ label text.toList ++ "\"]\n".toList
  | .edge source dotted kind target =>
    "  ".toList ++ shortName source ++ ' ' :: arrow dotted ++ '|' :: kind.name.toList ++
      "| ".toList ++ shortName target ++ ['\n']
  | .cyclic numbers =>
    "  classDef cyclic fill:#f8d7da,stroke:#c00\n  class ".toList ++
      [','].intercalate (numbers.map shortName) ++ " cyclic\n".toList

/-- The drawing of a graph. -/
def drawing (g : Graph) : List Char :=
  "graph LR\n".toList ++ (drawingLines g).flatMap Line.render

theorem quote_not_mem_label (text : List Char) : '"' ∉ label text := by
  simp only [label, List.mem_flatMap, not_exists, not_and]
  intro c _
  split
  · decide
  · next h =>
    intro hmem
    exact h (by simpa using (List.mem_singleton.mp hmem).symm)

end DepGraph.Mermaid

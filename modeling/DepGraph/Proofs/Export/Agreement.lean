import DepGraph.Export.Format
import DepGraph.Proofs.Graph.Annotated
import DepGraph.Proofs.Graph.MergeLaws

/-!
# Exports do not tell how a graph was built

Nodes are exported in the order of their identifiers and edges in the order of their keys, and what
depends on the history of a graph, such as the order of the neighbours of a node, is written in
documents only. So graphs that hold the same are exported alike.

- `Graph.Agree`: the graphs have nodes of the same identifiers, names and marks, and the same edges.
- `Node.shown`: what tables and drawings show of a node.
- `Agree.map_shown_nodes`, `Agree.sortedEdges_eq`: what two such graphs list is the same.
- `Csv.table_eq`, `Dot.drawing_eq`, `Mermaid.drawing_eq`: tables and drawings depend on that alone.
- `Graph.Annotated.export_eq_of_agree`: exports of such graphs are the same.
-/

namespace DepGraph

/-- What tables and drawings show of a node: the identifier, the name and the marks. -/
def Node.shown (n : Node) : Node where
  id := n.id
  name := n.name
  kind := .file
  source := ""
  cyclic := n.cyclic
  critical := n.critical

/-! ## Graphs that hold the same -/

namespace Graph

variable {g g' : Graph}

/-- The graphs have nodes of the same identifiers, with the same names and marks, and they have the
same edges. The order in which those were added, and what else is known of the nodes, may differ. -/
structure Agree (g g' : Graph) : Prop where
  nodes : ∀ id, (g.node? id).map (fun n => (n.name, n.cyclic, n.critical)) =
    (g'.node? id).map fun n => (n.name, n.cyclic, n.critical)
  edges : ∀ e, e ∈ g.edges ↔ e ∈ g'.edges

namespace Agree

theorem map_shown_node? (h : Agree g g') (hg : g.Identified) (hg' : g'.Identified) (id : String) :
    (g.node? id).map Node.shown = (g'.node? id).map Node.shown := by
  have hsame := h.nodes id
  cases hn : g.node? id with
  | none =>
    rw [hn, Option.map_none] at hsame
    rw [Option.map_eq_none_iff.mp hsame.symm]
  | some n =>
    rw [hn, Option.map_some] at hsame
    obtain ⟨n', hn', heq⟩ := Option.map_eq_some_iff.mp hsame.symm
    obtain ⟨hname, hcyclic, hcritical⟩ : n'.name = n.name ∧ n'.cyclic = n.cyclic ∧
        n'.critical = n.critical := by simpa using heq
    -- nothing is said about the identifiers in the nodes, but each stands under its own
    have hid : n'.id = n.id := (hg'.id_eq hn').trans (hg.id_eq hn).symm
    rw [hn', Option.map_some, Option.map_some, Node.shown, Node.shown, hid, hname, hcyclic,
      hcritical]

theorem map_shown_nodes (h : Agree g g') (hg : g.Identified) (hg' : g'.Identified) :
    g.nodes.map Node.shown = g'.nodes.map Node.shown :=
  map_nodes_eq (h.map_shown_node? hg hg')

theorem nodeIds_eq (h : Agree g g') : g.nodeIds = g'.nodeIds :=
  nodeIds_eq_iff.mpr fun id => by
    have hsome := congrArg Option.isSome (h.nodes id)
    rwa [Option.isSome_map, Option.isSome_map, ← contains_eq_isSome_node?,
      ← contains_eq_isSome_node?] at hsome

/-- Whether the nodes agree shows under the identifiers that are listed. -/
theorem of_nodeIds (hids : g.nodeIds = g'.nodeIds)
    (hnodes : ∀ id ∈ g.nodeIds, (g.node? id).map (fun n => (n.name, n.cyclic, n.critical)) =
      (g'.node? id).map fun n => (n.name, n.cyclic, n.critical))
    (hedges : ∀ e, e ∈ g.edges ↔ e ∈ g'.edges) : Agree g g' where
  nodes id := by
    by_cases hmem : id ∈ g.nodeIds
    · exact hnodes id hmem
    · have hnone : ∀ g : Graph, id ∉ g.nodeIds → g.node? id = none := fun g hid => by
        rwa [mem_nodeIds_iff, contains_eq_isSome_node?, Option.not_isSome_iff_eq_none] at hid
      rw [hnone g hmem, hnone g' (hids ▸ hmem)]
  edges := hedges

theorem sortedEdges_eq (h : Agree g g') (hg : g.Keyed) (hg' : g'.Keyed) :
    g.sortedEdges = g'.sortedEdges :=
  (hg.sortedEdges_eq_iff hg').mpr h.edges

end Agree

end Graph

/-! ## What tables and drawings depend on -/

section Formats

variable {g g' : Graph}

theorem Csv.table_eq (hedges : g.sortedEdges = g'.sortedEdges) : table g = table g' := by
  unfold table records
  rw [hedges]

/-- What a statement tells of a node is shown of it. -/
theorem Dot.map_ofNode_shown (nodes : List Node) :
    (nodes.map Node.shown).map ofNode = nodes.map ofNode :=
  List.map_map

theorem Dot.drawing_eq (hnodes : g.nodes.map Node.shown = g'.nodes.map Node.shown)
    (hedges : g.sortedEdges = g'.sortedEdges) : drawing g = drawing g' := by
  unfold drawing statements
  rw [hedges, ← map_ofNode_shown g.nodes, ← map_ofNode_shown g'.nodes, hnodes]

/-- The numbers of the cyclic nodes are those of what is shown. -/
theorem Mermaid.cyclic_shown (nodes : List Node) :
    ((nodes.map Node.shown).zipIdx.filter (·.1.cyclic)).map (·.2) =
      (nodes.zipIdx.filter (·.1.cyclic)).map (·.2) := by
  rw [List.zipIdx_map, List.filter_map, List.map_map]
  rfl

/-- So are the lines of the nodes. -/
theorem Mermaid.map_node_shown (nodes : List Node) :
    ((nodes.map Node.shown).zipIdx.map fun entry => Line.node entry.2 entry.1.id) =
      nodes.zipIdx.map fun entry => Line.node entry.2 entry.1.id := by
  rw [List.zipIdx_map, List.map_map]
  rfl

theorem Mermaid.drawing_eq (hids : g.nodeIds = g'.nodeIds)
    (hnodes : g.nodes.map Node.shown = g'.nodes.map Node.shown)
    (hedges : g.sortedEdges = g'.sortedEdges) : drawing g = drawing g' := by
  have hcyclic : cyclicLine g = cyclicLine g' := by
    unfold cyclicLine
    rw [← cyclic_shown g.nodes, ← cyclic_shown g'.nodes, hnodes]
  have hnumbering : numbering g = numbering g' := by
    unfold numbering
    rw [hids]
  unfold drawing drawingLines
  rw [hedges, hcyclic, hnumbering, ← map_node_shown g.nodes, ← map_node_shown g'.nodes, hnodes]

end Formats

/-! ## What a document lists -/

namespace Document

/-- The identifiers of the nodes that a document lists, in order. -/
def nodeIds? (document : Json) : Option (List String) := do
  let nodes ← (← document.get? "nodes").asArray?
  nodes.mapM fun node => (node.get? "id").bind Json.asText?

/-- The forms of the edges that a document lists, in order. -/
def edges? (document : Json) : Option (List Json) := do
  (← document.get? "edges").asArray?

theorem get?_nodes_ofGraph (g : Graph) :
    (ofGraph g).get? "nodes" = some (.array (g.nodes.map ofNode)) := by
  unfold ofGraph
  cases g.analyzedAt <;> rfl

theorem nodeIds?_ofGraph (g : Graph) : nodeIds? (ofGraph g) = some (g.nodes.map (·.id)) := by
  have hid : ∀ n : Node, ((ofNode n).get? "id").bind Json.asText? = some n.id := fun _ => rfl
  unfold nodeIds?
  rw [get?_nodes_ofGraph]
  show ((g.nodes.map ofNode).mapM fun node => (node.get? "id").bind Json.asText?) = _
  induction g.nodes with
  | nil => rfl
  | cons n nodes ih => simp [hid, ih]

theorem edges?_ofGraph (g : Graph) :
    edges? (ofGraph g) = some (g.sortedEdges.map (edgeWith number)) := by
  unfold edges? ofGraph
  cases g.analyzedAt <;> rfl

end Document

/-! ## Exports -/

namespace Graph

/-- **Exports do not tell how a graph was built.** If two graphs have nodes of the same identifiers,
names and marks and the same edges, then their tables and drawings are the same texts, and their
documents list the same identifiers in the same order and the same edges in the same order, whatever
the order in which nodes and edges were added and graphs were merged. -/
theorem Annotated.export_eq_of_agree {g g' : Graph} (hg : g.Annotated) (hg' : g'.Annotated)
    (h : Agree g g') :
    g.export .csv = g'.export .csv ∧ g.export .dot = g'.export .dot ∧
    g.export .mermaid = g'.export .mermaid ∧
    Document.nodeIds? (Document.ofGraph g) = some g.nodeIds ∧
    Document.nodeIds? (Document.ofGraph g') = some g.nodeIds ∧
    Document.edges? (Document.ofGraph g) = Document.edges? (Document.ofGraph g') ∧
    g.sortedEdges = g'.sortedEdges := by
  have hids := h.nodeIds_eq
  have hnodes := h.map_shown_nodes hg.identified hg'.identified
  have hedges := h.sortedEdges_eq hg.keyed hg'.keyed
  refine ⟨congrArg String.ofList (Csv.table_eq hedges),
    congrArg String.ofList (Dot.drawing_eq hnodes hedges),
    congrArg String.ofList (Mermaid.drawing_eq hids hnodes hedges), ?_, ?_, ?_, hedges⟩
  · rw [Document.nodeIds?_ofGraph, hg.identified.map_id_nodes]
  · rw [Document.nodeIds?_ofGraph, hg'.identified.map_id_nodes, hids]
  · rw [Document.edges?_ofGraph, Document.edges?_ofGraph, hedges]

/-- An edge. -/
def laterEdge : Edge := { source := "a", target := "b", kind := .uses, dynamic := true }

/-- An edge of another kind between the same nodes, which comes before that one in order. -/
def earlierEdge : Edge :=
  { source := "a", target := "b", kind := .imports, optional := true, weight := 2.5 }

/-- Two nodes and both edges. -/
def forwards : Graph :=
  let g := (({} : Graph).addNode
    { id := "a", name := "A", kind := .file, source := "", cyclic := true }).addNode
    { id := "b", name := "B", kind := .file, source := "" }
  (g.addEdge laterEdge).addEdge earlierEdge

/-- The nodes and the edges the other way round. One node has another name. -/
def reversed : Graph :=
  let g := (({} : Graph).addNode { id := "b", name := "C", kind := .package, source := "" }).addNode
    { id := "a", name := "A", kind := .package, source := "npm", cyclic := true, depth := 2 }
  (g.addEdge earlierEdge).addEdge laterEdge

/-- The same, merged into a graph that has a node of that identifier already. -/
def backwards : Graph :=
  (({} : Graph).addNode { id := "b", name := "B", kind := .module, source := "" }).merge reversed

theorem annotated_forwards : forwards.Annotated :=
  (((Annotated.empty default).addNode _).addNode _ |>.addEdge _).addEdge _

theorem annotated_backwards : backwards.Annotated :=
  ((Annotated.empty default).addNode _).merge
    ((((Annotated.empty default).addNode _).addNode _ |>.addEdge _).addEdge _)

theorem edges_forwards : forwards.edges = #[laterEdge, earlierEdge] := by
  rw [forwards, edges_addEdge, if_pos (by decide +kernel), edges_addEdge,
    if_pos (by decide +kernel), edges_addNode, edges_addNode]
  rfl

theorem edges_reversed : reversed.edges = #[earlierEdge, laterEdge] := by
  rw [reversed, edges_addEdge, if_pos (by decide +kernel), edges_addEdge,
    if_pos (by decide +kernel), edges_addNode, edges_addNode]
  rfl

theorem edges_backwards : backwards.edges = #[earlierEdge, laterEdge] := by
  rw [backwards, edges_merge, edges_reversed, List.foldl_cons, List.foldl_cons, List.foldl_nil,
    edges_addEdge, if_pos (by decide +kernel), edges_addEdge, if_pos (by decide +kernel),
    edges_withNodesOf, edges_addNode]
  rfl

theorem agree_forwards_backwards : Agree forwards backwards := by
  refine .of_nodeIds (by decide +kernel) (by decide +kernel) fun e => ?_
  rw [edges_forwards, edges_backwards]
  simp [or_comm]

/-- The edges were added the other way round, and yet all exports are the same. -/
theorem export_eq_of_agree_backwards :
    forwards.Annotated ∧ backwards.Annotated ∧ Agree forwards backwards ∧
    forwards.edges.map Edge.key ≠ backwards.edges.map Edge.key ∧
    forwards.export .csv = backwards.export .csv ∧ forwards.export .dot = backwards.export .dot ∧
    forwards.export .mermaid = backwards.export .mermaid ∧
    Document.nodeIds? (Document.ofGraph forwards) = some ["a", "b"] ∧
    Document.nodeIds? (Document.ofGraph backwards) = some ["a", "b"] ∧
    Document.edges? (Document.ofGraph forwards) = Document.edges? (Document.ofGraph backwards) := by
  obtain ⟨hcsv, hdot, hmermaid, hids, hids', hedges, -⟩ :=
    annotated_forwards.export_eq_of_agree annotated_backwards agree_forwards_backwards
  have hlisted : forwards.nodeIds = ["a", "b"] := by decide +kernel
  rw [hlisted] at hids hids'
  exact ⟨annotated_forwards, annotated_backwards, agree_forwards_backwards, by decide +kernel, hcsv,
    hdot, hmermaid, hids, hids', hedges⟩

end Graph

end DepGraph

import DepGraph.Proofs.Graph.Built

/-!
# The representation of a graph

What is asked of a graph is answered from what is kept beside its nodes. In a graph that is built,
all of it can be read off the edges.

- `Built.representation`: identifiers and nodes, the ends of the edges, the neighbours that the
  nodes name, and the questions about edges.
-/

namespace DepGraph.Graph

/-- What is asked of a graph that is built can be read off its edges. The clauses say, in order:

- the identifiers and the nodes that are kept stand for each other one to one, a node having the
  identifier under which it is found and the places in the order of adding being used once each;
- both ends of an edge are nodes, and no two edges have the same key;
- the neighbours that a node names are the ends of its edges, each once, in the order in which they
  were first seen, so that each end names the other exactly if an edge joins them;
- the edges out of a node, the keys that are known and the references that lead nowhere are what
  the edges say. -/
theorem Built.representation {g : Graph} (h : g.Built) :
    (g.nodes.map (·.id) = g.nodeIds ∧ g.nodeIds.Nodup ∧
      (∀ id node, g.node? id = some node → node.id = id) ∧
      (∀ id other place, g.place? id = some place → g.place? other = some place → id = other) ∧
      (∀ place, (∃ id, g.place? id = some place) ↔ place < g.nodeCount)) ∧
    ((∀ e ∈ g.edges, g.contains e.source = true ∧ g.contains e.target = true) ∧
      (g.edges.toList.map Edge.key).Nodup) ∧
    (∀ id node, g.node? id = some node →
      node.dependencies.toList =
        ((g.edges.toList.filter (·.source == id)).map (·.target)).eraseDups ∧
      node.dependents.toList =
        ((g.edges.toList.filter (·.target == id)).map (·.source)).eraseDups ∧
      node.dependencies.toList.Nodup ∧ node.dependents.toList.Nodup) ∧
    (∀ a b nodeA nodeB, g.node? a = some nodeA → g.node? b = some nodeB →
      (b ∈ nodeA.dependencies ↔ a ∈ nodeB.dependents) ∧
      (b ∈ nodeA.dependencies ↔ ∃ e ∈ g.edges, e.source = a ∧ e.target = b)) ∧
    (∀ id, (g.edgesFrom id).toList = g.edges.toList.filter (·.source == id)) ∧
    (∀ key, g.containsEdge key = true ↔ key ∈ g.edgeKeys) ∧
    g.danglingReferences = [] := by
  have hg := h.consistent
  refine ⟨⟨hg.map_id_nodes, Std.TreeMap.nodup_keys, fun id node hnode => (hg.reflects_node hnode).1,
    ?_, ?_⟩, ⟨?_, hg.nodup_keys⟩, ?_, ?_, hg.toList_edgesFrom, ?_, hg.danglingReferences_eq_nil⟩
  · intro id other place hid hother
    obtain ⟨entry, hentry, rfl⟩ := Option.map_eq_some_iff.mp hid
    obtain ⟨entry', hentry', hplace⟩ := Option.map_eq_some_iff.mp hother
    exact hg.place_inj hentry hentry' hplace.symm
  · intro place
    constructor
    · rintro ⟨id, hid⟩
      obtain ⟨entry, hentry, rfl⟩ := Option.map_eq_some_iff.mp hid
      exact hg.place_lt hentry
    · intro hplace
      obtain ⟨id, entry, hentry, rfl⟩ := hg.place_onto place hplace
      exact ⟨id, by rw [place?, hentry, Option.map_some]⟩
  · intro e he
    exact hg.contains_of_joins ⟨e, he, rfl, rfl⟩
  · intro id node hnode
    obtain ⟨-, hdependencies, hdependents⟩ := hg.reflects_node hnode
    refine ⟨hdependencies, hdependents, ?_, ?_⟩
    · rw [hdependencies]
      exact nodup_eraseDups _
    · rw [hdependents]
      exact nodup_eraseDups _
  · intro a b nodeA nodeB hA hB
    rw [hg.mem_dependencies_iff hA, hg.mem_dependents_iff hB]
    exact ⟨Iff.rfl, Iff.rfl⟩
  · intro key
    rw [hg.containsEdge_iff, edgeKeys, List.mem_mergeSort]

/-- Edges of two kinds lead from one node to another and an edge leads back to the first; one is
added twice, one leads nowhere, and a graph that shares a node is merged. -/
def parallel : Graph :=
  ((ofPairs ["b", "a"] [("a", "b"), ("a", "a"), ("a", "b"), ("a", "x")]).addEdge
    { source := "a", target := "b", kind := .requires }).merge (ofPairs ["c", "a"] [("c", "a")])

theorem built_parallel : parallel.Built :=
  .merge (.addEdge _ (built_ofPairs _ _)) (built_ofPairs _ _)

theorem representation_parallel :
    parallel.Built ∧ parallel.nodes.map (·.id) = ["a", "b", "c"] ∧
      (∀ node, parallel.node? "a" = some node →
        node.dependencies.toList = ["b", "a"] ∧ node.dependents.toList = ["a", "c"]) ∧
      parallel.danglingReferences = [] := by
  obtain ⟨⟨hids, -⟩, -, hnode, -, -, -, hdangling⟩ := Built.representation built_parallel
  refine ⟨built_parallel, ?_, ?_, hdangling⟩
  · rw [hids]
    decide +kernel
  · intro node hat
    obtain ⟨hdependencies, hdependents, -⟩ := hnode "a" node hat
    rw [hdependencies, hdependents]
    decide +kernel

end DepGraph.Graph

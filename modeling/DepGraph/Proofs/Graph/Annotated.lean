import DepGraph.Proofs.Graph.Annotation
import DepGraph.Proofs.Graph.Assembled

/-!
# Graphs whose nodes are written into

Nodes are changed in place when they are marked, and by everybody who looks one up in order to write
into it. Whatever is written, identifiers aside, every node stays under its own identifier, and the
edges are not concerned.

- `Annotated`: the graphs that come from the empty one by adding any nodes, adding edges, merging,
  changing nodes and keeping what an analysis found.
- `Annotated.of_kept`: what every operation keeps holds of all of them.
- `Annotated.keyed`, `Annotated.identified`, `Annotated.anchored`: the edges stay in step, the nodes
  under their identifiers, and the ends of edges among the nodes.
- `Identified.pairwise_nodes`: the nodes come in strict order.
-/

namespace DepGraph.Graph

/-- The graphs that come from the empty one by adding any nodes, adding edges, merging, changing
nodes in place as long as they keep their identifiers, and keeping statistics and the time of an
analysis. -/
inductive Annotated : Graph → Prop
  | empty (createdAt : Timestamp) : Annotated { createdAt }
  | addNode {g : Graph} (node : Node) (hg : Annotated g) : Annotated (g.addNode node)
  | addEdge {g : Graph} (e : Edge) (hg : Annotated g) : Annotated (g.addEdge e)
  | merge {g other : Graph} (hg : Annotated g) (hother : Annotated other) :
      Annotated (g.merge other)
  | modifyNode {g : Graph} (id : String) {change : Node → Node} (hid : ∀ n, (change n).id = n.id)
      (hg : Annotated g) : Annotated (g.modifyNode id change)
  | analyzed {g : Graph} (analyzedAt : Option Timestamp) (statistics : Option Statistics)
      (hg : Annotated g) : Annotated { g with analyzedAt, statistics }

variable {g : Graph}

/-! ## Nodes under their identifiers -/

namespace Identified

theorem addNode (h : g.Identified) (node : Node) : (g.addNode node).Identified := by
  intro id entry hentry
  by_cases hnew : g.contains node.id = true
  · rw [Graph.addNode, if_pos hnew] at hentry
    exact h id entry hentry
  · rcases lookup?_addNode_cases (by simpa using hnew) hentry with ⟨rfl, rfl⟩ | hold
    · rfl
    · exact h id entry hold

/-- An edge changes the neighbours of its ends. -/
theorem addEdge (h : g.Identified) (e : Edge) : (g.addEdge e).Identified := by
  intro id entry hentry
  unfold Graph.addEdge at hentry
  split at hentry
  · rw [lookup?_insertEdge] at hentry
    obtain ⟨old, hold, rfl⟩ := Option.map_eq_some_iff.mp hentry
    refine Eq.trans ?_ (h id old hold)
    dsimp only
    split <;> split <;> simp [Entry.addOutgoing, Entry.addIncoming]
  · exact h id entry hentry

theorem of_rewritten {change : String → Node → Node} {g' : Graph} (h : g.Identified)
    (hrewritten : Rewritten change g g') (hid : ∀ id n, (change id n).id = n.id) :
    g'.Identified := by
  intro id entry hentry
  rw [hrewritten.lookup?_eq] at hentry
  obtain ⟨old, hold, rfl⟩ := Option.map_eq_some_iff.mp hentry
  exact (hid id old.node).trans (h id old hold)

/-- The nodes come in strict order. -/
theorem pairwise_nodes (h : g.Identified) : g.nodes.Pairwise fun a b => a.id < b.id := by
  have hordered : g.nodeIds.Pairwise fun a b => compare a b = .lt := Std.TreeMap.ordered_keys
  have hids : g.nodeIds.Pairwise (· < ·) := hordered.imp compareOfLessAndEq_eq_lt.mp
  rwa [← h.map_id_nodes, List.pairwise_map] at hids

end Identified

/-! ## Edges between nodes -/

/-- No edge dangles. -/
def Anchored (g : Graph) : Prop :=
  ∀ e ∈ g.edges.toList, g.contains e.source = true ∧ g.contains e.target = true

namespace Anchored

theorem addNode (h : g.Anchored) (node : Node) : (g.addNode node).Anchored := by
  intro e he
  rw [edges_addNode] at he
  obtain ⟨hsource, htarget⟩ := h e he
  rw [contains_addNode, contains_addNode, hsource, htarget]
  exact ⟨Bool.true_or _, Bool.true_or _⟩

/-- An edge whose ends are no nodes is not taken. -/
theorem addEdge (h : g.Anchored) (e : Edge) : (g.addEdge e).Anchored := by
  intro other hother
  rw [contains_addEdge, contains_addEdge]
  rw [edges_addEdge] at hother
  split at hother
  · next haccepts =>
    rw [Array.toList_push, List.mem_append, List.mem_singleton] at hother
    rcases hother with hold | rfl
    · exact h other hold
    · simp only [accepts, Bool.and_eq_true] at haccepts
      exact haccepts.1
  · exact h other hother

theorem of_rewritten {change : String → Node → Node} {g' : Graph} (h : g.Anchored)
    (hrewritten : Rewritten change g g') : g'.Anchored := by
  intro e he
  rw [hrewritten.edges_eq] at he
  rw [hrewritten.contains_eq, hrewritten.contains_eq]
  exact h e he

end Anchored

/-- Changes of nodes do not concern what is kept of the edges. -/
theorem Keyed.of_rewritten {change : String → Node → Node} {g' : Graph} (h : g.Keyed)
    (hrewritten : Rewritten change g g') : g'.Keyed where
  outgoing_eq := by
    intro id entry hentry
    rw [hrewritten.lookup?_eq] at hentry
    obtain ⟨old, hold, rfl⟩ := Option.map_eq_some_iff.mp hentry
    rw [edgesOut, hrewritten.edges_eq]
    show old.outgoing.toList = g.edgesOut id
    exact h.outgoing_eq hold
  source_mem e he := by
    rw [hrewritten.edges_eq] at he
    rw [hrewritten.contains_eq]
    exact h.source_mem e he
  nodup_keys := by
    rw [hrewritten.edges_eq]
    exact h.nodup_keys

namespace Annotated

/-- What every operation keeps holds of all of these graphs. Merging is adding nodes and edges. -/
theorem of_kept {P : Graph → Prop} (h : g.Annotated) (hempty : ∀ createdAt, P { createdAt })
    (hnode : ∀ {g}, P g → ∀ node, P (g.addNode node))
    (hedge : ∀ {g}, P g → ∀ e, P (g.addEdge e))
    (hmodify : ∀ {g}, P g → ∀ (id : String) {change : Node → Node},
      (∀ n, (change n).id = n.id) → P (g.modifyNode id change))
    (hanalyzed : ∀ {g : Graph}, P g → ∀ analyzedAt statistics,
      P { g with analyzedAt, statistics }) : P g := by
  induction h with
  | empty createdAt => exact hempty createdAt
  | addNode node _ ih => exact hnode ih node
  | addEdge e _ ih => exact hedge ih e
  | @merge _ other _ _ ih _ =>
    exact keeps_merge (P := P) hnode hedge (fun {g} hg => hanalyzed hg g.analyzedAt none) ih other
  | modifyNode id hid _ ih => exact hmodify ih id hid
  | analyzed analyzedAt statistics _ ih => exact hanalyzed ih analyzedAt statistics

theorem keyed (h : g.Annotated) : g.Keyed :=
  h.of_kept keyed_empty Keyed.addNode Keyed.addEdge
    (fun h id _ _ => h.of_rewritten (rewritten_modifyNode _ id _)) fun h _ _ => { h with }

theorem identified (h : g.Annotated) : g.Identified := by
  refine h.of_kept (fun _ _ _ h => absurd h (by simp [lookup?])) Identified.addNode
    Identified.addEdge (fun h id _ hid => ?_) fun h _ _ => h
  refine h.of_rewritten (rewritten_modifyNode _ id _) fun other n => ?_
  split
  · exact hid n
  · rfl

theorem anchored (h : g.Annotated) : g.Anchored :=
  h.of_kept (fun _ _ h => absurd h List.not_mem_nil) Anchored.addNode Anchored.addEdge
    (fun h id _ _ => h.of_rewritten (rewritten_modifyNode _ id _)) fun h _ _ => h

end Annotated

/-- Nodes without neighbours are nodes. -/
theorem Built.annotated (h : g.Built) : g.Annotated := by
  induction h with
  | empty createdAt => exact .empty createdAt
  | addNode _ _ _ ih => exact ih.addNode _
  | addEdge e _ ih => exact ih.addEdge e
  | merge _ _ ih ih' => exact ih.merge ih'

end DepGraph.Graph

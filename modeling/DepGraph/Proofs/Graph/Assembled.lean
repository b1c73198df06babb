import DepGraph.Proofs.Graph.Structure

/-!
# Graphs from any nodes

Nodes may come with lists of neighbours that no edge bears out. Such lists are as the caller left
them, but the edges are not concerned: an edge is taken only if its key is new, and what is asked
for that is kept beside the nodes.

- `Assembled`: the graphs that come from the empty one by adding any nodes, adding edges and
  merging.
- `keeps_merge`: what adding nodes and edges keeps is kept by merging.
- `Keyed`: the outgoing edges of the nodes are in step with the edges, and no key comes twice.
- `Assembled.keyed`: every operation keeps this.
- `Keyed.pairwise_sortedEdges`: sorted by their keys, the edges ascend strictly.
- `Keyed.sortedEdges_eq_iff`: so the order in which they were added does not show.
-/

namespace DepGraph.Graph

/-- The graphs that come from the empty one by adding nodes, whatever neighbours they name, by
adding edges, whether they are taken or not, and by merging. -/
inductive Assembled : Graph → Prop
  | empty (createdAt : Timestamp) : Assembled { createdAt }
  | addNode {g : Graph} (node : Node) (hg : Assembled g) : Assembled (g.addNode node)
  | addEdge {g : Graph} (e : Edge) (hg : Assembled g) : Assembled (g.addEdge e)
  | merge {g other : Graph} (hg : Assembled g) (hother : Assembled other) :
      Assembled (g.merge other)

/-- What is kept beside the nodes tells whether the key of an edge is new. -/
structure Keyed (g : Graph) : Prop where
  outgoing_eq : ∀ {id entry}, g.lookup? id = some entry → entry.outgoing.toList = g.edgesOut id
  source_mem : ∀ e ∈ g.edges.toList, g.contains e.source = true
  nodup_keys : (g.edges.toList.map Edge.key).Nodup

/-! ## What every operation keeps -/

variable {g : Graph}

/-- What adding a node and adding an edge keep is kept by merging, if it does not depend on the
statistics. -/
theorem keeps_merge {P : Graph → Prop} (hnode : ∀ {g}, P g → ∀ node, P (g.addNode node))
    (hedge : ∀ {g}, P g → ∀ e, P (g.addEdge e))
    (hstatistics : ∀ {g : Graph}, P g → P { g with statistics := none }) (h : P g)
    (other : Graph) : P (g.merge other) := by
  refine hstatistics ?_
  rw [← Array.foldl_toList]
  exact List.foldlRecOn _ _ (List.foldlRecOn _ _ h fun _ hg node _ => hnode hg node.isolated)
    fun _ hg e _ => hedge hg e

theorem keyed_empty (createdAt : Timestamp) : Keyed { createdAt } where
  outgoing_eq := by intro id entry h; simp [lookup?] at h
  source_mem := by simp
  nodup_keys := by simp

namespace Keyed

/-- There are no edges out of what is no node. -/
theorem edgesOut_of_new (h : g.Keyed) {id : String} (hnew : g.contains id = false) :
    g.edgesOut id = [] := by
  refine List.filter_eq_nil_iff.mpr fun e he heq => ?_
  have hmem := h.source_mem e he
  rw [beq_iff_eq.mp heq, hnew] at hmem
  exact Bool.false_ne_true hmem

theorem toList_edgesFrom (h : g.Keyed) (id : String) : (g.edgesFrom id).toList = g.edgesOut id := by
  unfold edgesFrom
  split
  · next entry hentry => exact h.outgoing_eq hentry
  · next hnone =>
    rw [h.edgesOut_of_new (by rw [contains_eq_isSome, hnone]; rfl)]

theorem containsEdge_iff (h : g.Keyed) (key : EdgeKey) :
    g.containsEdge key = true ↔ key ∈ g.edges.toList.map Edge.key := by
  unfold containsEdge
  rw [← Array.any_toList, h.toList_edgesFrom, edgesOut, List.any_filter, List.any_eq_true,
    List.mem_map]
  refine exists_congr fun e => and_congr_right fun _ => ?_
  obtain ⟨source, target, kind⟩ := key
  simp [Edge.key]

/-- A node changes no edge, and a new one has none. -/
theorem addNode (h : g.Keyed) (node : Node) : (g.addNode node).Keyed := by
  have hedges := edges_addNode g node
  refine { outgoing_eq := ?_, source_mem := ?_, nodup_keys := by rw [hedges]; exact h.nodup_keys }
  · intro id entry hentry
    show entry.outgoing.toList = (g.addNode node).edges.toList.filter (·.source == id)
    rw [hedges]
    by_cases hnew : g.contains node.id = true
    · rw [Graph.addNode, if_pos hnew] at hentry
      exact h.outgoing_eq hentry
    rw [Bool.not_eq_true] at hnew
    rcases lookup?_addNode_cases hnew hentry with ⟨rfl, rfl⟩ | hold
    · exact (h.edgesOut_of_new hnew).symm
    · exact h.outgoing_eq hold
  · intro e he
    rw [hedges] at he
    rw [contains_addNode, h.source_mem e he, Bool.true_or]

/-- An edge that is taken is kept with its source, and its key was new. -/
theorem insertEdge (h : g.Keyed) {e : Edge} (haccepts : g.accepts e = true) :
    (g.insertEdge e).Keyed := by
  simp only [accepts, Bool.and_eq_true, Bool.not_eq_true'] at haccepts
  obtain ⟨⟨hsource, -⟩, hkey⟩ := haccepts
  refine { outgoing_eq := ?_, source_mem := ?_, nodup_keys := ?_ }
  · intro id entry hentry
    rw [lookup?_insertEdge] at hentry
    obtain ⟨old, hold, rfl⟩ := Option.map_eq_some_iff.mp hentry
    rw [edgesOut_insertEdge, ← h.outgoing_eq hold]
    -- only the source of the edge gets an outgoing one, here and there
    by_cases hsource : e.source = id <;> by_cases htarget : e.target = id <;>
      simp [hsource, htarget, Entry.addOutgoing, Entry.addIncoming]
  · rw [toList_edges_insertEdge]
    simp only [contains_insertEdge]
    exact List.forall_mem_append.mpr ⟨h.source_mem, List.forall_mem_singleton.mpr hsource⟩
  · have hnew : e.key ∉ g.edges.toList.map Edge.key := by
      rw [← h.containsEdge_iff, hkey]
      exact Bool.false_ne_true
    rw [toList_edges_insertEdge, List.map_append, List.map_singleton, List.nodup_append_comm]
    exact List.nodup_cons.mpr ⟨hnew, h.nodup_keys⟩

theorem addEdge (h : g.Keyed) (e : Edge) : (g.addEdge e).Keyed := by
  unfold Graph.addEdge
  split
  · next haccepts => exact h.insertEdge haccepts
  · exact h

/-- Merging is adding nodes and edges, and the other graph may be any. -/
theorem merge (h : g.Keyed) (other : Graph) : (g.merge other).Keyed :=
  keeps_merge addNode addEdge (fun h => { h with }) h other

end Keyed

theorem Assembled.keyed (h : g.Assembled) : g.Keyed := by
  induction h with
  | empty createdAt => exact keyed_empty createdAt
  | addNode node _ ih => exact ih.addNode node
  | addEdge e _ ih => exact ih.addEdge e
  | @merge _ other _ _ ih _ => exact ih.merge other

/-! ## Edges in order -/

/-- The sorted edges have the sorted keys. -/
theorem map_key_sortedEdges (g : Graph) : g.sortedEdges.map Edge.key = g.edgeKeys :=
  List.map_mergeSort fun _ _ _ _ => rfl

theorem sortedEdges_perm (g : Graph) : g.sortedEdges.Perm g.edges.toList :=
  List.mergeSort_perm _ _

/-- Different keys that come in order come in strict order. -/
theorem Keyed.pairwise_sortedEdges (h : g.Keyed) :
    g.sortedEdges.Pairwise fun a b => EdgeKey.order a.key b.key = .lt := by
  have hnodup : g.edgeKeys.Nodup := (List.mergeSort_perm _ _).nodup_iff.mpr h.nodup_keys
  have hstrict : g.edgeKeys.Pairwise fun a b => EdgeKey.order a b = .lt := by
    refine ((pairwise_edgeKeys g).and hnodup).imp fun {a b} hab => ?_
    obtain ⟨hle, hne⟩ := hab
    cases horder : EdgeKey.order a b with
    | lt => rfl
    | eq => exact absurd (EdgeKey.eq_of_order_eq horder) hne
    | gt => rw [EdgeKey.le, horder] at hle; exact absurd hle Bool.false_ne_true
  rwa [← map_key_sortedEdges, List.pairwise_map] at hstrict

/-- No edge comes twice, so the sorted edges are the same if the edges are, whatever their order. -/
theorem Keyed.sortedEdges_eq_iff {g' : Graph} (h : g.Keyed) (h' : g'.Keyed) :
    g.sortedEdges = g'.sortedEdges ↔ ∀ e, e ∈ g.edges ↔ e ∈ g'.edges := by
  have hmem : ∀ (g : Graph) (e : Edge), e ∈ g.edges ↔ e ∈ g.sortedEdges := fun g e => by
    rw [(sortedEdges_perm g).mem_iff, Array.mem_toList_iff]
  constructor
  · intro heq e
    rw [hmem g, heq, hmem g']
  · intro hedges
    have hperm : g.edges.toList.Perm g'.edges.toList := by
      refine (List.perm_ext_iff_of_nodup (.of_map _ h.nodup_keys) (.of_map _ h'.nodup_keys)).mpr ?_
      simpa only [Array.mem_toList_iff] using hedges
    -- two lists in strict order cannot hold two edges the other way round
    refine ((sortedEdges_perm g).trans (hperm.trans (sortedEdges_perm g').symm)).eq_of_pairwise ?_
      h.pairwise_sortedEdges h'.pairwise_sortedEdges
    intro a b _ _ hlt hgt
    exact absurd (Std.OrientedCmp.gt_of_lt hlt) (by rw [hgt]; decide)

end DepGraph.Graph

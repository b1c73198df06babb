import Mathlib.Data.List.Induction
import Mathlib.Data.List.Nodup
import DepGraph.Graph.Adjacency

/-!
# Graphs that are built

A graph says several times what depends on what: in its edges, in the outgoing edges that are kept
beside every node, and in the lists of neighbours inside the nodes. Nothing compares them at run
time; every analysis and every export relies on their being in step.

- `Built`: the graphs that come from the empty one by adding nodes without neighbours, adding edges
  and merging.
- `Consistent`: the places number the nodes, and all that is kept of a node can be read off the
  edges.
- `Identified`: every node stands under its own identifier.
- `consistent_addNode`, `consistent_addEdge`, `consistent_merge`: every operation keeps this.
- `mem_dependencyIds_iff`: a search over the neighbours of the nodes goes over the edges.
-/

namespace DepGraph

/-! ## Lists without duplicates -/

/-- Lists without their repetitions grow at the end, and only by what is new. -/
theorem eraseDups_concat (ids : List String) (id : String) :
    (ids ++ [id]).eraseDups = if id ∈ ids then ids.eraseDups else ids.eraseDups ++ [id] := by
  rw [List.eraseDups_append]
  by_cases h : id ∈ ids
  · rw [if_pos h]
    simp [List.removeAll, h]
  · rw [if_neg h]
    simp [List.removeAll, h, List.eraseDups_cons]

theorem nodup_eraseDups (ids : List String) : ids.eraseDups.Nodup := by
  induction ids using List.reverseRecOn with
  | nil => exact List.nodup_nil
  | append_singleton ids id ih =>
    rw [eraseDups_concat]
    split
    · exact ih
    · next hnew =>
      rw [List.nodup_append_comm]
      exact List.nodup_cons.mpr ⟨mt List.mem_eraseDups.mp hnew, ih⟩

theorem perm_eraseDups {ids ids' : List String} (h : ids.Perm ids') :
    ids.eraseDups.Perm ids'.eraseDups :=
  (List.perm_ext_iff_of_nodup (nodup_eraseDups ids) (nodup_eraseDups ids')).mpr fun id => by
    rw [List.mem_eraseDups, List.mem_eraseDups, h.mem_iff]

/-- A neighbour is added at the end of what was seen so far, unless it was seen before. -/
theorem dependencies_addDependency {n : Node} {ids : List String} (id : String)
    (h : n.dependencies.toList = ids.eraseDups) :
    (n.addDependency id).dependencies.toList = (ids ++ [id]).eraseDups := by
  have hmem : n.dependencies.contains id = true ↔ id ∈ ids := by
    rw [Array.contains_iff_mem, ← Array.mem_toList_iff, h, List.mem_eraseDups]
  rw [eraseDups_concat]
  unfold Node.addDependency
  by_cases hid : id ∈ ids
  · rw [if_pos (hmem.mpr hid), if_pos hid, h]
  · rw [if_neg (mt hmem.mp hid), if_neg hid, Array.toList_push, h]

theorem dependents_addDependent {n : Node} {ids : List String} (id : String)
    (h : n.dependents.toList = ids.eraseDups) :
    (n.addDependent id).dependents.toList = (ids ++ [id]).eraseDups := by
  have hmem : n.dependents.contains id = true ↔ id ∈ ids := by
    rw [Array.contains_iff_mem, ← Array.mem_toList_iff, h, List.mem_eraseDups]
  rw [eraseDups_concat]
  unfold Node.addDependent
  by_cases hid : id ∈ ids
  · rw [if_pos (hmem.mpr hid), if_pos hid, h]
  · rw [if_neg (mt hmem.mp hid), if_neg hid, Array.toList_push, h]

@[simp] theorem Node.dependents_addDependency (n : Node) (id : String) :
    (n.addDependency id).dependents = n.dependents := by
  unfold Node.addDependency; split <;> rfl

@[simp] theorem Node.dependencies_addDependent (n : Node) (id : String) :
    (n.addDependent id).dependencies = n.dependencies := by
  unfold Node.addDependent; split <;> rfl

/-! ## What is kept of a node -/

/-- What is kept of a node can be read off the edges out of it and into it. -/
structure Entry.Reflects (entry : Entry) (id : String) (outgoing incoming : List Edge) : Prop where
  id_eq : entry.node.id = id
  outgoing_eq : entry.outgoing.toList = outgoing
  dependencies_eq : entry.node.dependencies.toList = (outgoing.map (·.target)).eraseDups
  dependents_eq : entry.node.dependents.toList = (incoming.map (·.source)).eraseDups

namespace Entry

variable {entry : Entry} {id : String} {outgoing incoming : List Edge}

/-- A node without neighbours reflects that there are no edges. -/
theorem reflects_isolated {node : Node} (place : Nat) (hdependencies : node.dependencies = #[])
    (hdependents : node.dependents = #[]) :
    (Entry.mk node place #[]).Reflects node.id [] [] where
  id_eq := rfl
  outgoing_eq := rfl
  dependencies_eq := by rw [hdependencies]; rfl
  dependents_eq := by rw [hdependents]; rfl

theorem reflects_addOutgoing (h : entry.Reflects id outgoing incoming) (e : Edge) :
    (entry.addOutgoing e).Reflects id (outgoing ++ [e]) incoming where
  id_eq := by
    show (entry.node.addDependency e.target).id = id
    rw [Node.id_addDependency, h.id_eq]
  outgoing_eq := by
    show (entry.outgoing.push e).toList = outgoing ++ [e]
    rw [Array.toList_push, h.outgoing_eq]
  dependencies_eq := by
    rw [List.map_append]
    exact dependencies_addDependency e.target h.dependencies_eq
  dependents_eq := by
    show (entry.node.addDependency e.target).dependents.toList = _
    rw [Node.dependents_addDependency, h.dependents_eq]

theorem reflects_addIncoming (h : entry.Reflects id outgoing incoming) (e : Edge) :
    (entry.addIncoming e).Reflects id outgoing (incoming ++ [e]) where
  id_eq := by
    show (entry.node.addDependent e.source).id = id
    rw [Node.id_addDependent, h.id_eq]
  outgoing_eq := h.outgoing_eq
  dependencies_eq := by
    show (entry.node.addDependent e.source).dependencies.toList = _
    rw [Node.dependencies_addDependent, h.dependencies_eq]
  dependents_eq := by
    rw [List.map_append]
    exact dependents_addDependent e.source h.dependents_eq

end Entry

namespace Graph

/-! ## The invariant -/

/-- The graphs that come from the empty one by adding nodes without neighbours, by adding edges,
whether they are taken or not, and by merging. -/
inductive Built : Graph → Prop
  | empty (createdAt : Timestamp) : Built { createdAt }
  | addNode {g : Graph} {node : Node} (hg : Built g) (hdependencies : node.dependencies = #[])
      (hdependents : node.dependents = #[]) : Built (g.addNode node)
  | addEdge {g : Graph} (e : Edge) (hg : Built g) : Built (g.addEdge e)
  | merge {g other : Graph} (hg : Built g) (hother : Built other) : Built (g.merge other)

/-- The edges out of a node, in the order of adding. -/
def edgesOut (g : Graph) (id : String) : List Edge :=
  g.edges.toList.filter (·.source == id)

/-- The edges into a node, in the order of adding. -/
def edgesInto (g : Graph) (id : String) : List Edge :=
  g.edges.toList.filter (·.target == id)

/-- Does an edge go from the first node to the second? -/
def Joins (g : Graph) (source target : String) : Prop :=
  ∃ e ∈ g.edges, e.source = source ∧ e.target = target

/-- Nodes of a graph of which each is joined to the next. -/
structure Path (g : Graph) (members : List String) : Prop where
  contains : ∀ id ∈ members, g.contains id = true
  linked : members.IsChain g.Joins

/-- The places number the nodes. -/
structure Placed (g : Graph) : Prop where
  place_lt : ∀ {id entry}, g.lookup? id = some entry → entry.place < g.nodeCount
  place_inj : ∀ {id other entry entry'}, g.lookup? id = some entry →
    g.lookup? other = some entry' → entry.place = entry'.place → id = other
  place_onto : ∀ place < g.nodeCount, ∃ id entry, g.lookup? id = some entry ∧ entry.place = place

/-- The representations of a graph are in step. -/
structure Consistent (g : Graph) : Prop extends Placed g where
  /-- What is kept of a node agrees with the edges. -/
  reflects : ∀ {id entry}, g.lookup? id = some entry →
    entry.Reflects id (g.edgesOut id) (g.edgesInto id)
  source_mem : ∀ e ∈ g.edges.toList, g.contains e.source = true
  target_mem : ∀ e ∈ g.edges.toList, g.contains e.target = true
  nodup_keys : (g.edges.toList.map Edge.key).Nodup

theorem contains_eq_isSome (g : Graph) (id : String) : g.contains id = (g.lookup? id).isSome :=
  Std.TreeMap.contains_eq_isSome_getElem?

theorem mem_nodeIds_iff {g : Graph} {id : String} : id ∈ g.nodeIds ↔ g.contains id = true := by
  rw [nodeIds, Std.TreeMap.mem_keys, contains, Std.TreeMap.contains_iff_mem]

theorem consistent_empty (createdAt : Timestamp) : Consistent { createdAt } where
  reflects := by intro id entry h; simp [lookup?] at h
  place_lt := by intro id entry h; simp [lookup?] at h
  place_inj := by intro id other entry entry' h; simp [lookup?] at h
  place_onto := by intro place h; simp [nodeCount] at h
  source_mem := by simp
  target_mem := by simp
  nodup_keys := by simp

/-! ## Adding a node -/

section AddNode

variable {g : Graph} {node : Node}

theorem lookup?_addNode_of_new (hnew : g.contains node.id = false) (id : String) :
    (g.addNode node).lookup? id =
      if node.id = id then some ⟨node, g.nodeCount, #[]⟩ else g.lookup? id := by
  unfold addNode
  rw [if_neg (by rw [hnew]; exact Bool.false_ne_true)]
  simp only [lookup?, Std.TreeMap.getElem?_insert, Std.compare_eq_iff_eq]

theorem nodeCount_addNode_of_new (hnew : g.contains node.id = false) :
    (g.addNode node).nodeCount = g.nodeCount + 1 := by
  unfold addNode
  rw [if_neg (by rw [hnew]; exact Bool.false_ne_true)]
  unfold contains at hnew
  simp [nodeCount, Std.TreeMap.size_insert, hnew]

theorem contains_addNode (g : Graph) (node : Node) (id : String) :
    (g.addNode node).contains id = (g.contains id || node.id == id) := by
  by_cases hnew : g.contains node.id
  · unfold addNode
    rw [if_pos hnew]
    by_cases heq : node.id = id
    · rw [← heq, hnew, Bool.true_or]
    · rw [beq_eq_false_iff_ne.mpr heq, Bool.or_false]
  · rw [Bool.not_eq_true] at hnew
    rw [contains_eq_isSome, lookup?_addNode_of_new hnew]
    by_cases heq : node.id = id
    · rw [if_pos heq, beq_iff_eq.mpr heq, Bool.or_true]
      rfl
    · rw [if_neg heq, beq_eq_false_iff_ne.mpr heq, Bool.or_false, contains_eq_isSome]

/-- There are no edges out of what is no node, and none into it. -/
theorem Consistent.edgesOut_of_new (h : g.Consistent) {id : String}
    (hnew : g.contains id = false) : g.edgesOut id = [] := by
  refine List.filter_eq_nil_iff.mpr fun e he heq => ?_
  have hmem := h.source_mem e he
  rw [beq_iff_eq.mp heq, hnew] at hmem
  exact Bool.false_ne_true hmem

theorem Consistent.edgesInto_of_new (h : g.Consistent) {id : String}
    (hnew : g.contains id = false) : g.edgesInto id = [] := by
  refine List.filter_eq_nil_iff.mpr fun e he heq => ?_
  have hmem := h.target_mem e he
  rw [beq_iff_eq.mp heq, hnew] at hmem
  exact Bool.false_ne_true hmem

/-- The outgoing edges that are kept with a node are its edges, in the order of adding. -/
theorem Consistent.toList_edgesFrom (h : g.Consistent) (id : String) :
    (g.edgesFrom id).toList = g.edgesOut id := by
  unfold edgesFrom
  split
  · next entry hentry => exact (h.reflects hentry).outgoing_eq
  · next hnone =>
    have hnew : g.contains id = false := by rw [contains_eq_isSome, hnone]; rfl
    rw [h.edgesOut_of_new hnew]

/-- What is found after adding a node is the new node, or was found before. -/
theorem lookup?_addNode_cases (hnew : g.contains node.id = false) {id : String} {entry : Entry}
    (hentry : (g.addNode node).lookup? id = some entry) :
    (node.id = id ∧ entry = ⟨node, g.nodeCount, #[]⟩) ∨ g.lookup? id = some entry := by
  rw [lookup?_addNode_of_new hnew] at hentry
  split at hentry
  · next heq => exact .inl ⟨heq, (Option.some.inj hentry).symm⟩
  · exact .inr hentry

/-- A new node takes the place after all others. -/
theorem placed_addNode (h : g.Placed) (hnew : g.contains node.id = false) :
    (g.addNode node).Placed := by
  have hcount := nodeCount_addNode_of_new hnew
  refine { place_lt := ?_, place_inj := ?_, place_onto := ?_ }
  · intro id entry hentry
    rw [hcount]
    rcases lookup?_addNode_cases hnew hentry with ⟨-, rfl⟩ | hold
    · exact Nat.lt_succ_self _
    · exact Nat.lt_succ_of_lt (h.place_lt hold)
  · intro id other entry entry' hentry hentry' hplace
    rcases lookup?_addNode_cases hnew hentry with ⟨rfl, rfl⟩ | hold
    · rcases lookup?_addNode_cases hnew hentry' with ⟨heq, -⟩ | hold'
      · exact heq
      · exact absurd hplace.symm (Nat.ne_of_lt (h.place_lt hold'))
    · rcases lookup?_addNode_cases hnew hentry' with ⟨-, rfl⟩ | hold'
      · exact absurd hplace (Nat.ne_of_lt (h.place_lt hold))
      · exact h.place_inj hold hold' hplace
  · intro place hplace
    rw [hcount] at hplace
    rcases Nat.lt_succ_iff_lt_or_eq.mp hplace with hlt | rfl
    · obtain ⟨id, entry, hentry, hat⟩ := h.place_onto place hlt
      refine ⟨id, entry, ?_, hat⟩
      have hne : node.id ≠ id := by
        rintro rfl
        rw [contains_eq_isSome, hentry] at hnew
        exact Bool.false_ne_true hnew.symm
      rw [lookup?_addNode_of_new hnew, if_neg hne]
      exact hentry
    · exact ⟨node.id, _, by rw [lookup?_addNode_of_new hnew, if_pos rfl], rfl⟩

/-- Adding a node without neighbours keeps the representations in step. -/
theorem consistent_addNode (h : g.Consistent) (hdependencies : node.dependencies = #[])
    (hdependents : node.dependents = #[]) : (g.addNode node).Consistent := by
  by_cases hnew : g.contains node.id
  · unfold addNode
    rw [if_pos hnew]
    exact h
  rw [Bool.not_eq_true] at hnew
  have hedges := edges_addNode g node
  refine { toPlaced := placed_addNode h.toPlaced hnew, reflects := ?_, source_mem := ?_,
           target_mem := ?_, nodup_keys := by rw [hedges]; exact h.nodup_keys }
  · intro id entry hentry
    unfold edgesOut edgesInto
    rw [hedges]
    rcases lookup?_addNode_cases hnew hentry with ⟨rfl, rfl⟩ | hold
    · -- no edge could be taken from or to a node that was not there
      have hout := h.edgesOut_of_new hnew
      have hinto := h.edgesInto_of_new hnew
      unfold edgesOut at hout
      unfold edgesInto at hinto
      rw [hout, hinto]
      exact Entry.reflects_isolated _ hdependencies hdependents
    · exact h.reflects hold
  · intro e he
    rw [hedges] at he
    rw [contains_addNode, h.source_mem e he, Bool.true_or]
  · intro e he
    rw [hedges] at he
    rw [contains_addNode, h.target_mem e he, Bool.true_or]

end AddNode

/-! ## Adding an edge -/

section AddEdge

variable {g : Graph} {e : Edge}

/-- An edge changes what is kept of its two ends, which may be one node. -/
theorem lookup?_insertEdge (g : Graph) (e : Edge) (id : String) :
    (g.insertEdge e).lookup? id = (g.lookup? id).map fun entry =>
      let entry := if e.source = id then entry.addOutgoing e else entry
      if e.target = id then entry.addIncoming e else entry := by
  simp only [insertEdge, lookup?, Std.TreeMap.getElem?_modify, Std.compare_eq_iff_eq]
  by_cases htarget : e.target = id
  · subst htarget
    by_cases hsource : e.source = e.target
    · simp [hsource, Function.comp_def]
    · simp [hsource]
  · by_cases hsource : e.source = id
    · subst hsource
      simp [htarget]
    · simp [htarget, hsource]

theorem contains_insertEdge (g : Graph) (e : Edge) (id : String) :
    (g.insertEdge e).contains id = g.contains id := by
  rw [contains_eq_isSome, contains_eq_isSome, lookup?_insertEdge, Option.isSome_map]

theorem nodeCount_insertEdge (g : Graph) (e : Edge) :
    (g.insertEdge e).nodeCount = g.nodeCount := by
  simp [nodeCount, insertEdge, Std.TreeMap.size_modify]

theorem toList_edges_insertEdge (g : Graph) (e : Edge) :
    (g.insertEdge e).edges.toList = g.edges.toList ++ [e] :=
  Array.toList_push

theorem edgesOut_insertEdge (g : Graph) (e : Edge) (id : String) :
    (g.insertEdge e).edgesOut id = g.edgesOut id ++ if e.source = id then [e] else [] := by
  unfold edgesOut
  rw [toList_edges_insertEdge, List.filter_append]
  by_cases h : e.source = id <;> simp [h]

theorem edgesInto_insertEdge (g : Graph) (e : Edge) (id : String) :
    (g.insertEdge e).edgesInto id = g.edgesInto id ++ if e.target = id then [e] else [] := by
  unfold edgesInto
  rw [toList_edges_insertEdge, List.filter_append]
  by_cases h : e.target = id <;> simp [h]

/-- Both changes of an edge at once. Where it joins a node to itself, they hit the same entry. -/
theorem Consistent.reflects_insertEdge (h : g.Consistent) {id : String} {entry : Entry}
    (hentry : (g.insertEdge e).lookup? id = some entry) :
    entry.Reflects id ((g.insertEdge e).edgesOut id) ((g.insertEdge e).edgesInto id) := by
  rw [lookup?_insertEdge] at hentry
  obtain ⟨old, hold, rfl⟩ := Option.map_eq_some_iff.mp hentry
  rw [edgesOut_insertEdge, edgesInto_insertEdge]
  have hreflects := h.reflects hold
  have houtgoing : (if e.source = id then old.addOutgoing e else old).Reflects id
      (g.edgesOut id ++ if e.source = id then [e] else []) (g.edgesInto id) := by
    by_cases hsource : e.source = id
    · rw [if_pos hsource, if_pos hsource]
      exact Entry.reflects_addOutgoing hreflects e
    · rw [if_neg hsource, if_neg hsource, List.append_nil]
      exact hreflects
  by_cases htarget : e.target = id
  · rw [if_pos htarget, if_pos htarget]
    exact Entry.reflects_addIncoming houtgoing e
  · rw [if_neg htarget, if_neg htarget, List.append_nil]
    exact houtgoing

theorem place_of_lookup?_insertEdge {id : String} {entry : Entry}
    (hentry : (g.insertEdge e).lookup? id = some entry) :
    ∃ old, g.lookup? id = some old ∧ old.place = entry.place := by
  rw [lookup?_insertEdge] at hentry
  obtain ⟨old, hold, rfl⟩ := Option.map_eq_some_iff.mp hentry
  refine ⟨old, hold, ?_⟩
  dsimp only
  split <;> split <;> rfl

/-- An edge leaves the places as they are. -/
theorem placed_insertEdge (h : g.Placed) (e : Edge) : (g.insertEdge e).Placed := by
  refine { place_lt := ?_, place_inj := ?_, place_onto := ?_ }
  · intro id entry hentry
    obtain ⟨old, hold, hplace⟩ := place_of_lookup?_insertEdge hentry
    rw [nodeCount_insertEdge, ← hplace]
    exact h.place_lt hold
  · intro id other entry entry' hentry hentry' heq
    obtain ⟨old, hold, hplace⟩ := place_of_lookup?_insertEdge hentry
    obtain ⟨old', hold', hplace'⟩ := place_of_lookup?_insertEdge hentry'
    exact h.place_inj hold hold' (by rw [hplace, hplace', heq])
  · intro place hplace
    rw [nodeCount_insertEdge] at hplace
    obtain ⟨id, old, hold, hat⟩ := h.place_onto place hplace
    have hentry := lookup?_insertEdge g e id
    rw [hold, Option.map_some] at hentry
    obtain ⟨old', hold', hplace'⟩ := place_of_lookup?_insertEdge hentry
    rw [hold] at hold'
    obtain rfl := Option.some.inj hold'
    exact ⟨id, _, hentry, hplace'.symm.trans hat⟩

/-- The key of an edge is known exactly if the edge was added before. -/
theorem Consistent.containsEdge_iff (h : g.Consistent) (key : EdgeKey) :
    g.containsEdge key = true ↔ key ∈ g.edges.toList.map Edge.key := by
  unfold containsEdge
  rw [← Array.any_toList, h.toList_edgesFrom, edgesOut, List.any_filter, List.any_eq_true,
    List.mem_map]
  refine exists_congr fun e => and_congr_right fun _ => ?_
  obtain ⟨source, target, kind⟩ := key
  simp [Edge.key]

/-- Adding an edge, whether it is taken or not, keeps the representations in step. -/
theorem consistent_addEdge (h : g.Consistent) (e : Edge) : (g.addEdge e).Consistent := by
  unfold addEdge
  by_cases haccepts : g.accepts e
  swap
  · rw [if_neg haccepts]
    exact h
  rw [if_pos haccepts]
  simp only [accepts, Bool.and_eq_true, Bool.not_eq_true'] at haccepts
  obtain ⟨⟨hsource, htarget⟩, hkey⟩ := haccepts
  refine { toPlaced := placed_insertEdge h.toPlaced e, reflects := h.reflects_insertEdge,
           source_mem := ?_, target_mem := ?_, nodup_keys := ?_ }
  · rw [toList_edges_insertEdge]
    simp only [contains_insertEdge]
    exact List.forall_mem_append.mpr ⟨h.source_mem, List.forall_mem_singleton.mpr hsource⟩
  · rw [toList_edges_insertEdge]
    simp only [contains_insertEdge]
    exact List.forall_mem_append.mpr ⟨h.target_mem, List.forall_mem_singleton.mpr htarget⟩
  · -- an edge is taken only if its key is new
    have hnew : e.key ∉ g.edges.toList.map Edge.key := by
      rw [← h.containsEdge_iff, hkey]
      exact Bool.false_ne_true
    rw [toList_edges_insertEdge, List.map_append, List.map_singleton, List.nodup_append_comm]
    exact List.nodup_cons.mpr ⟨hnew, h.nodup_keys⟩

end AddEdge

/-! ## Merging -/

theorem consistent_foldl_addNode :
    ∀ (nodes : List Node) {g : Graph}, g.Consistent →
      (nodes.foldl (fun g node => g.addNode node.isolated) g).Consistent
  | [], _, h => h
  | _ :: nodes, _, h => consistent_foldl_addNode nodes (consistent_addNode h rfl rfl)

theorem consistent_foldl_addEdge :
    ∀ (edges : List Edge) {g : Graph}, g.Consistent → (edges.foldl addEdge g).Consistent
  | [], _, h => h
  | e :: edges, _, h => consistent_foldl_addEdge edges (consistent_addEdge h e)

/-- Merging is adding, and the other graph may be any. -/
theorem consistent_merge {g : Graph} (h : g.Consistent) (other : Graph) :
    (g.merge other).Consistent := by
  have hnodes := consistent_foldl_addNode other.nodes h
  have hedges := consistent_foldl_addEdge other.edges.toList hnodes
  rw [Array.foldl_toList] at hedges
  -- the statistics are dropped, and no clause looks at them
  exact { hedges with }

/-- Every graph that is built has its representations in step. -/
theorem Built.consistent {g : Graph} (h : g.Built) : g.Consistent := by
  induction h with
  | empty createdAt => exact consistent_empty createdAt
  | addNode _ hdependencies hdependents ih => exact consistent_addNode ih hdependencies hdependents
  | addEdge e _ ih => exact consistent_addEdge ih e
  | @merge g other _ _ ih _ => exact consistent_merge ih other

/-! ## Asking a graph that is in step -/

theorem mem_targets_iff {g : Graph} {source target : String} :
    target ∈ ((g.edgesOut source).map (·.target)).eraseDups ↔ g.Joins source target := by
  simp [edgesOut, Joins, and_assoc]

theorem mem_sources_iff {g : Graph} {source target : String} :
    source ∈ ((g.edgesInto target).map (·.source)).eraseDups ↔ g.Joins source target := by
  simp only [List.mem_eraseDups, List.mem_map, edgesInto, List.mem_filter, beq_iff_eq, Joins,
    Array.mem_toList_iff]
  constructor
  · rintro ⟨e, ⟨he, rfl⟩, rfl⟩
    exact ⟨e, he, rfl, rfl⟩
  · rintro ⟨e, he, rfl, rfl⟩
    exact ⟨e, ⟨he, rfl⟩, rfl⟩

/-- Every node stands under its own identifier. -/
def Identified (g : Graph) : Prop :=
  ∀ id entry, g.lookup? id = some entry → entry.node.id = id

namespace Identified

variable {g : Graph} (h : g.Identified)

include h

/-- Under an identifier stands a node with that identifier. -/
theorem id_eq {id : String} {node : Node} (hnode : g.node? id = some node) : node.id = id := by
  obtain ⟨entry, hentry, rfl⟩ := Option.map_eq_some_iff.mp hnode
  exact h id entry hentry

/-- The nodes come in the order of their identifiers, each under its own. -/
theorem map_id_nodes : g.nodes.map (·.id) = g.nodeIds := by
  unfold nodes nodeIds
  rw [List.map_map, ← Std.TreeMap.map_fst_toList_eq_keys]
  refine List.map_congr_left fun kept hkept => ?_
  exact h _ _ (Std.TreeMap.mem_toList_iff_getElem?_eq_some.mp hkept)

theorem node?_of_mem_nodes {node : Node} (hnode : node ∈ g.nodes) :
    g.node? node.id = some node := by
  obtain ⟨kept, hkept, rfl⟩ := List.mem_map.mp hnode
  have hlookup : g.lookup? kept.1 = some kept.2 :=
    Std.TreeMap.mem_toList_iff_getElem?_eq_some.mp hkept
  rw [h _ _ hlookup, node?, hlookup]
  rfl

end Identified

namespace Consistent

variable {g : Graph} (h : g.Consistent)

include h

theorem reflects_node {id : String} {node : Node} (hnode : g.node? id = some node) :
    node.id = id ∧ node.dependencies.toList = ((g.edgesOut id).map (·.target)).eraseDups ∧
      node.dependents.toList = ((g.edgesInto id).map (·.source)).eraseDups := by
  obtain ⟨entry, hentry, rfl⟩ := Option.map_eq_some_iff.mp hnode
  have hreflects := h.reflects hentry
  exact ⟨hreflects.id_eq, hreflects.dependencies_eq, hreflects.dependents_eq⟩

/-- A node names another as a dependency exactly if an edge goes there. -/
theorem mem_dependencies_iff {id target : String} {node : Node} (hnode : g.node? id = some node) :
    target ∈ node.dependencies ↔ g.Joins id target := by
  rw [← Array.mem_toList_iff, (h.reflects_node hnode).2.1, mem_targets_iff]

theorem mem_dependents_iff {id source : String} {node : Node} (hnode : g.node? id = some node) :
    source ∈ node.dependents ↔ g.Joins source id := by
  rw [← Array.mem_toList_iff, (h.reflects_node hnode).2.2, mem_sources_iff]

/-- A node names no dependency exactly if no edge leaves it. -/
theorem isEmpty_dependencies_iff {id : String} {node : Node} (hnode : g.node? id = some node) :
    node.dependencies.isEmpty = true ↔ ∀ e ∈ g.edges, e.source ≠ id := by
  rw [Array.isEmpty_iff, Array.eq_empty_iff_forall_not_mem]
  simp only [h.mem_dependencies_iff hnode, Joins]
  exact ⟨fun hnone e he heq => hnone e.target ⟨e, he, heq, rfl⟩,
    fun hnone target ⟨e, he, heq, _⟩ => hnone e he heq⟩

theorem isEmpty_dependents_iff {id : String} {node : Node} (hnode : g.node? id = some node) :
    node.dependents.isEmpty = true ↔ ∀ e ∈ g.edges, e.target ≠ id := by
  rw [Array.isEmpty_iff, Array.eq_empty_iff_forall_not_mem]
  simp only [h.mem_dependents_iff hnode, Joins]
  exact ⟨fun hnone e he heq => hnone e.source ⟨e, he, rfl, heq⟩,
    fun hnone source ⟨e, he, _, heq⟩ => hnone e he heq⟩

theorem contains_of_joins {source target : String} (hjoins : g.Joins source target) :
    g.contains source = true ∧ g.contains target = true := by
  obtain ⟨e, he, rfl, rfl⟩ := hjoins
  exact ⟨h.source_mem e (Array.mem_toList_iff.mpr he), h.target_mem e (Array.mem_toList_iff.mpr he)⟩

theorem identified : g.Identified := fun _ _ hentry =>
  (h.reflects hentry).id_eq

theorem map_id_nodes : g.nodes.map (·.id) = g.nodeIds :=
  h.identified.map_id_nodes

theorem node?_of_mem_nodes {node : Node} (hnode : node ∈ g.nodes) :
    g.node? node.id = some node :=
  h.identified.node?_of_mem_nodes hnode

theorem danglingReferences_eq_nil : g.danglingReferences = [] := by
  refine List.flatMap_eq_nil_iff.mpr fun node hnode => List.map_eq_nil_iff.mpr ?_
  refine List.filter_eq_nil_iff.mpr fun id hid => ?_
  have hat := h.node?_of_mem_nodes hnode
  rw [Array.mem_toList_iff, Array.mem_append] at hid
  rcases hid with hid | hid
  · rw [(h.contains_of_joins ((h.mem_dependencies_iff hat).mp hid)).2]
    exact Bool.false_ne_true
  · rw [(h.contains_of_joins ((h.mem_dependents_iff hat).mp hid)).1]
    exact Bool.false_ne_true

/-! ### What a search goes over -/

/-- The neighbours that a search follows are the ends of the edges. -/
theorem mem_dependencyIds_iff {source target : String} :
    target ∈ g.dependencyIds source ↔ g.Joins source target := by
  unfold dependencyIds
  split
  · next node hnode => rw [Array.mem_toList_iff, h.mem_dependencies_iff hnode]
  · next hnone =>
    refine iff_of_false List.not_mem_nil fun hjoins => ?_
    have hsource := (h.contains_of_joins hjoins).1
    rw [contains_eq_isSome, ← Option.isSome_map, show (g.lookup? source).map (·.node) = none from
      hnone] at hsource
    exact Bool.false_ne_true hsource

/-- No neighbour is followed twice from a node. -/
theorem nodup_dependencyIds (id : String) : (g.dependencyIds id).Nodup := by
  unfold dependencyIds
  split
  · next node hnode =>
    rw [(h.reflects_node hnode).2.1]
    exact nodup_eraseDups _
  · exact List.nodup_nil

theorem mem_next_firstSeen_iff {source target : String} :
    target ∈ g.firstSeen.next source ↔ g.Joins source target :=
  h.mem_dependencyIds_iff

theorem mem_next_byId_iff {source target : String} :
    target ∈ g.byId.next source ↔ g.Joins source target :=
  List.mem_mergeSort.trans h.mem_dependencyIds_iff

theorem mem_next_byEdges_iff {source target : String} :
    target ∈ g.byEdges.next source ↔ g.Joins source target := by
  show target ∈ ((g.edgesFrom source).map (·.target)).toList ↔ _
  rw [Array.toList_map, h.toList_edgesFrom, ← mem_targets_iff, List.mem_eraseDups]

end Consistent

/-! ## Small graphs -/

/-- The graph of the given nodes and of an edge for every pair of them. -/
def ofPairs (ids : List String) (pairs : List (String × String)) : Graph :=
  pairs.foldl (fun g pair => g.addEdge { source := pair.1, target := pair.2, kind := .imports })
    (ids.foldl (fun g id => g.addNode { id, name := id, kind := .module, source := id }) {})

theorem built_ofPairs (ids : List String) (pairs : List (String × String)) :
    (ofPairs ids pairs).Built := by
  have hnodes : ∀ (ids : List String) {g : Graph}, g.Built → Graph.Built
      (ids.foldl (fun g id => g.addNode { id, name := id, kind := .module, source := id }) g) := by
    intro ids
    induction ids with
    | nil => exact fun hg => hg
    | cons id ids ih => exact fun hg => ih (hg.addNode rfl rfl)
  have hedges : ∀ (pairs : List (String × String)) {g : Graph}, g.Built → Graph.Built
      (pairs.foldl
        (fun g pair => g.addEdge { source := pair.1, target := pair.2, kind := .imports }) g) := by
    intro pairs
    induction pairs with
    | nil => exact fun hg => hg
    | cons pair pairs ih => exact fun hg => ih (hg.addEdge _)
  exact hedges pairs (hnodes ids (.empty default))

end Graph

end DepGraph

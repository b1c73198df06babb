import DepGraph.Proofs.Graph.Built

/-!
# Merging is a union

Merging adds the nodes of the other graph and then its edges. Whatever was there stays, the
neighbours that a node names apart, and what is added is what the other graph has more.

- `contains_merge`, `mem_edgeKeys_merge_iff`: the nodes and the edges of a merged graph are those of
  the two.
- `isolated_node?_merge`: a node of the first graph keeps what is known of it, and a new one brings
  along what was known of it.
-/

namespace DepGraph

theorem Node.isolated_addDependency (n : Node) (id : String) :
    (n.addDependency id).isolated = n.isolated := by
  unfold addDependency
  split <;> rfl

theorem Node.isolated_addDependent (n : Node) (id : String) :
    (n.addDependent id).isolated = n.isolated := by
  unfold addDependent
  split <;> rfl

namespace Graph

variable {g other : Graph}

/-! ## Adding edges -/

theorem contains_addEdge (g : Graph) (e : Edge) (id : String) :
    (g.addEdge e).contains id = g.contains id := by
  unfold addEdge
  split
  · exact contains_insertEdge g e id
  · rfl

/-- An edge changes nothing about a node but the neighbours that it names. -/
theorem isolated_node?_addEdge (g : Graph) (e : Edge) (id : String) :
    ((g.addEdge e).node? id).map Node.isolated = (g.node? id).map Node.isolated := by
  unfold addEdge
  split
  · rw [node?, lookup?_insertEdge, node?]
    simp only [Option.map_map]
    refine congrArg (Option.map · _) (funext fun entry => ?_)
    dsimp only [Function.comp_apply]
    split <;> split <;>
      simp only [Entry.addIncoming, Entry.addOutgoing, Node.isolated_addDependency,
        Node.isolated_addDependent]
  · rfl

/-- The keys of a graph with one more edge between its nodes, which may have been there before. -/
theorem mem_keys_addEdge_iff (h : g.Consistent) {e : Edge} (hsource : g.contains e.source = true)
    (htarget : g.contains e.target = true) (key : EdgeKey) :
    key ∈ (g.addEdge e).edges.toList.map Edge.key ↔
      key ∈ g.edges.toList.map Edge.key ∨ key = e.key := by
  rw [edges_addEdge]
  by_cases hknown : g.containsEdge e.key = true
  · have hmem := (h.containsEdge_iff e.key).mp hknown
    rw [if_neg (by simp [accepts, hknown])]
    refine (or_iff_left_of_imp ?_).symm
    rintro rfl
    exact hmem
  · rw [if_pos (by simp [accepts, hsource, htarget, hknown]), Array.toList_push, List.map_append,
      List.mem_append, List.map_singleton, List.mem_singleton]

theorem contains_foldl_addEdge (edges : List Edge) (g : Graph) (id : String) :
    (edges.foldl addEdge g).contains id = g.contains id := by
  induction edges generalizing g with
  | nil => rfl
  | cons e edges ih => rw [List.foldl_cons, ih, contains_addEdge]

theorem isolated_node?_foldl_addEdge (edges : List Edge) (g : Graph) (id : String) :
    ((edges.foldl addEdge g).node? id).map Node.isolated = (g.node? id).map Node.isolated := by
  induction edges generalizing g with
  | nil => rfl
  | cons e edges ih => rw [List.foldl_cons, ih, isolated_node?_addEdge]

theorem mem_keys_foldl_addEdge_iff {edges : List Edge} (h : g.Consistent)
    (hends : ∀ e ∈ edges, g.contains e.source = true ∧ g.contains e.target = true)
    (key : EdgeKey) :
    key ∈ (edges.foldl addEdge g).edges.toList.map Edge.key ↔
      key ∈ g.edges.toList.map Edge.key ∨ key ∈ edges.map Edge.key := by
  induction edges generalizing g with
  | nil => simp
  | cons e edges ih =>
    obtain ⟨⟨hsource, htarget⟩, hrest⟩ := List.forall_mem_cons.mp hends
    have hrest' : ∀ other ∈ edges, (g.addEdge e).contains other.source = true ∧
        (g.addEdge e).contains other.target = true := by
      simpa only [contains_addEdge] using hrest
    rw [List.foldl_cons, ih (consistent_addEdge h e) hrest', mem_keys_addEdge_iff h hsource htarget,
      List.map_cons, List.mem_cons, or_assoc]

/-! ## Adding nodes -/

theorem contains_foldl_addNode (nodes : List Node) (g : Graph) (id : String) :
    (nodes.foldl (fun g node => g.addNode node.isolated) g).contains id =
      (g.contains id || (nodes.map (·.id)).contains id) := by
  induction nodes generalizing g with
  | nil => simp
  | cons node nodes ih =>
    rw [List.foldl_cons, ih, contains_addNode, List.map_cons, List.contains_cons, Bool.or_assoc,
      BEq.comm (a := id)]
    rfl

theorem edges_foldl_addNode (nodes : List Node) (g : Graph) :
    (nodes.foldl (fun g node => g.addNode node.isolated) g).edges = g.edges := by
  induction nodes generalizing g with
  | nil => rfl
  | cons node nodes ih => rw [List.foldl_cons, ih, edges_addNode]

theorem contains_eq_isSome_node? (g : Graph) (id : String) :
    g.contains id = (g.node? id).isSome := by
  rw [contains_eq_isSome, node?, Option.isSome_map]

/-- What is known of a node after adding nodes: what was known before, or else what the first of
the added nodes of its identifier says. -/
theorem node?_foldl_addNode (nodes : List Node) (g : Graph) (id : String) :
    (nodes.foldl (fun g node => g.addNode node.isolated) g).node? id =
      (g.node? id).or ((nodes.find? (·.id == id)).map Node.isolated) := by
  induction nodes generalizing g with
  | nil => simp
  | cons node nodes ih =>
    rw [List.foldl_cons, ih, node?_addNode, contains_eq_isSome_node?]
    by_cases heq : node.id = id
    · cases hnode : g.node? id <;> simp [Node.isolated, heq]
    · have hne : node.isolated.id ≠ id := heq
      simp [hne, heq]

/-! ## Merging -/

theorem contains_merge (g : Graph) (hother : other.Consistent) (id : String) :
    (g.merge other).contains id = (g.contains id || other.contains id) := by
  have hids : (other.nodes.map (·.id)).contains id = other.contains id := by
    rw [hother.map_id_nodes, Bool.eq_iff_iff, List.contains_iff_mem, mem_nodeIds_iff]
  show (other.edges.foldl addEdge _).contains id = _
  rw [← Array.foldl_toList, contains_foldl_addEdge, contains_foldl_addNode, hids]

/-- The nodes are those that are found under their identifiers. -/
theorem Consistent.mem_nodes_iff (h : g.Consistent) {node : Node} :
    node ∈ g.nodes ↔ g.node? node.id = some node := by
  constructor
  · exact h.node?_of_mem_nodes
  · intro hnode
    obtain ⟨entry, hentry, rfl⟩ := Option.map_eq_some_iff.mp hnode
    exact List.mem_map.mpr ⟨_, Std.TreeMap.mem_toList_iff_getElem?_eq_some.mpr hentry, rfl⟩

/-- The first of the nodes with an identifier is the node that is found under it. -/
theorem Consistent.find?_nodes (h : g.Consistent) (id : String) :
    g.nodes.find? (·.id == id) = g.node? id := by
  cases hfind : g.nodes.find? (·.id == id) with
  | some node =>
    obtain rfl : node.id = id := by simpa using List.find?_some hfind
    exact (h.node?_of_mem_nodes (List.mem_of_find?_eq_some hfind)).symm
  | none =>
    cases hnode : g.node? id with
    | none => rfl
    | some node =>
      obtain rfl : node.id = id := (h.reflects_node hnode).1
      simpa using List.find?_eq_none.mp hfind _ (h.mem_nodes_iff.mpr hnode)

/-- A node keeps what is known of it, but for its neighbours; a new one brings it along. -/
theorem isolated_node?_merge (g : Graph) (hother : other.Consistent) (id : String) :
    ((g.merge other).node? id).map Node.isolated =
      ((g.node? id).or (other.node? id)).map Node.isolated := by
  show ((other.edges.foldl addEdge _).node? id).map Node.isolated = _
  rw [← Array.foldl_toList, isolated_node?_foldl_addEdge, node?_foldl_addNode, hother.find?_nodes]
  cases g.node? id with
  | some node => rfl
  | none => cases other.node? id <;> rfl

/-- A node of either graph is found in the merged one. The first graph decides what is known of
it. -/
theorem exists_node?_merge (hother : other.Consistent) {id : String} {node : Node}
    (hnode : (g.node? id).or (other.node? id) = some node) :
    ∃ merged, (g.merge other).node? id = some merged ∧ merged.isolated = node.isolated := by
  have hsame := isolated_node?_merge g hother id
  rw [hnode] at hsame
  exact Option.map_eq_some_iff.mp hsame

/-- A node of the first graph keeps what is known of it. -/
theorem exists_node?_merge_of_left (hother : other.Consistent) {id : String} {node : Node}
    (hnode : g.node? id = some node) :
    ∃ merged, (g.merge other).node? id = some merged ∧ merged.isolated = node.isolated :=
  exists_node?_merge hother (Option.or_eq_some_iff.mpr (.inl hnode))

theorem mem_edgeKeys_iff {key : EdgeKey} :
    key ∈ g.edgeKeys ↔ key ∈ g.edges.toList.map Edge.key :=
  List.mem_mergeSort

theorem mem_edgeKeys_merge_iff (hg : g.Consistent) (hother : other.Consistent) {key : EdgeKey} :
    key ∈ (g.merge other).edgeKeys ↔ key ∈ g.edgeKeys ∨ key ∈ other.edgeKeys := by
  have hnodes := consistent_foldl_addNode other.nodes hg
  have hids : ∀ id, other.contains id = true →
      (other.nodes.foldl (fun g node => g.addNode node.isolated) g).contains id = true := by
    intro id hid
    rw [contains_foldl_addNode, hother.map_id_nodes, Bool.or_eq_true, List.contains_iff_mem,
      mem_nodeIds_iff]
    exact .inr hid
  simp only [mem_edgeKeys_iff]
  show key ∈ (other.edges.foldl addEdge _).edges.toList.map Edge.key ↔ _
  rw [← Array.foldl_toList, mem_keys_foldl_addEdge_iff hnodes
    fun e he => ⟨hids _ (hother.source_mem e he), hids _ (hother.target_mem e he)⟩,
    edges_foldl_addNode]

end Graph

end DepGraph

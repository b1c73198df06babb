import DepGraph.Proofs.Graph.Structure

/-!
# The laws of merging

Merging copies the nodes of the other graph without their neighbours and adds its edges one after
another, so nodes, edges, parallel edges of several kinds and edges from a node to itself may be
there already. What comes out is the union of the two graphs in every respect.

- `toList_edges_merge`: the edges of the first graph stay in front, and the new ones follow.
- `mergeCount_add_edgeCount`: the edges that are taken are counted.
- `Merged`: what merging makes of two graphs, with `Consistent.merged`.
- `Built.merge_union`: this holds of every two graphs that are built, and merging is idempotent,
  commutative and associative.
-/

namespace DepGraph.Graph

variable {g other third : Graph}

/-! ## Adding edges one after another -/

/-- Between nodes of the graph, an edge is taken exactly if its key is new. -/
theorem accepts_iff (h : g.Consistent) {e : Edge} (hsource : g.contains e.source = true)
    (htarget : g.contains e.target = true) : g.accepts e = true ↔ e.key ∉ g.edgeKeys := by
  rw [mem_edgeKeys_iff, ← h.containsEdge_iff]
  simp [accepts, hsource, htarget]

theorem toList_edges_addEdge (h : g.Consistent) {e : Edge} (hsource : g.contains e.source = true)
    (htarget : g.contains e.target = true) :
    (g.addEdge e).edges.toList = g.edges.toList ++ if e.key ∉ g.edgeKeys then [e] else [] := by
  rw [edges_addEdge]
  by_cases hnew : e.key ∉ g.edgeKeys
  · rw [if_pos ((accepts_iff h hsource htarget).mpr hnew), if_pos hnew, Array.toList_push]
  · rw [if_neg (mt (accepts_iff h hsource htarget).mp hnew), if_neg hnew, List.append_nil]

/-- Edges with different keys are taken if their keys are new, and stay in their order. -/
theorem toList_edges_foldl_addEdge {edges : List Edge} (h : g.Consistent)
    (hends : ∀ e ∈ edges, g.contains e.source = true ∧ g.contains e.target = true)
    (hnodup : (edges.map Edge.key).Nodup) :
    (edges.foldl addEdge g).edges.toList =
      g.edges.toList ++ edges.filter fun e => e.key ∉ g.edgeKeys := by
  induction edges generalizing g with
  | nil => simp
  | cons e edges ih =>
    obtain ⟨⟨hsource, htarget⟩, hrest⟩ := List.forall_mem_cons.mp hends
    obtain ⟨hother, hnodup⟩ := List.nodup_cons.mp hnodup
    have hrest' : ∀ later ∈ edges, (g.addEdge e).contains later.source = true ∧
        (g.addEdge e).contains later.target = true := by
      simpa only [contains_addEdge] using hrest
    -- no later edge has the key of this one, so it is as new as before
    have hlater : edges.filter (fun later => later.key ∉ (g.addEdge e).edgeKeys) =
        edges.filter fun later => later.key ∉ g.edgeKeys := by
      refine List.filter_congr fun later hlater => decide_eq_decide.mpr (not_congr ?_)
      rw [mem_edgeKeys_iff, mem_keys_addEdge_iff h hsource htarget, ← mem_edgeKeys_iff]
      refine or_iff_left fun heq => hother ?_
      rw [← heq]
      exact List.mem_map_of_mem hlater
    rw [List.foldl_cons, ih (consistent_addEdge h e) hrest' hnodup, hlater,
      toList_edges_addEdge h hsource htarget, List.append_assoc, List.filter_cons]
    by_cases hnew : e.key ∉ g.edgeKeys
    · simp [hnew]
    · simp [hnew]

/-- The count keeps pace with the edges. -/
theorem snd_foldl_addCounting (edges : List Edge) (counted : Graph × Nat) :
    (edges.foldl addCounting counted).2 + counted.1.edgeCount =
      counted.2 + (edges.foldl addEdge counted.1).edgeCount := by
  induction edges generalizing counted with
  | nil => rfl
  | cons e edges ih =>
    have hrest := ih (addCounting counted e)
    rw [List.foldl_cons, List.foldl_cons]
    by_cases haccepts : counted.1.accepts e = true
    · have hcount : (counted.1.insertEdge e).edgeCount = counted.1.edgeCount + 1 :=
        Array.size_push ..
      rw [addCounting, if_pos haccepts] at hrest ⊢
      rw [addEdge, if_pos haccepts]
      dsimp only at hrest ⊢
      omega
    · rw [addCounting, if_neg haccepts] at hrest ⊢
      rw [addEdge, if_neg haccepts]
      exact hrest

/-! ## The edges of a merged graph -/

/-- The first graph with the nodes of the other one, before its edges are added. -/
def withNodesOf (g other : Graph) : Graph :=
  other.nodes.foldl (fun g node => g.addNode node.isolated) g

theorem consistent_withNodesOf (h : g.Consistent) (other : Graph) :
    (g.withNodesOf other).Consistent :=
  consistent_foldl_addNode other.nodes h

theorem edges_withNodesOf (g other : Graph) : (g.withNodesOf other).edges = g.edges :=
  edges_foldl_addNode other.nodes g

theorem edgeKeys_withNodesOf (g other : Graph) : (g.withNodesOf other).edgeKeys = g.edgeKeys := by
  rw [edgeKeys, edges_withNodesOf, edgeKeys]

theorem contains_withNodesOf (g : Graph) (hother : other.Identified) (id : String) :
    (g.withNodesOf other).contains id = (g.contains id || other.contains id) := by
  have hids : (other.nodes.map (·.id)).contains id = other.contains id := by
    rw [hother.map_id_nodes, Bool.eq_iff_iff, List.contains_iff_mem, mem_nodeIds_iff]
  rw [withNodesOf, contains_foldl_addNode, hids]

/-- The ends of the edges that are to be added are there. -/
theorem ends_mem_withNodesOf (g : Graph) (hother : other.Consistent) :
    ∀ e ∈ other.edges.toList, (g.withNodesOf other).contains e.source = true ∧
      (g.withNodesOf other).contains e.target = true := by
  intro e he
  simp only [contains_withNodesOf g hother.identified, hother.source_mem e he,
    hother.target_mem e he, Bool.or_true, and_self]

theorem edges_merge (g other : Graph) :
    (g.merge other).edges = (other.edges.toList.foldl addEdge (g.withNodesOf other)).edges := by
  rw [Array.foldl_toList]
  rfl

/-- The edges of the first graph come first, as they are, and then those of the other one that are
new, in their order. -/
theorem toList_edges_merge (h : g.Consistent) (hother : other.Consistent) :
    (g.merge other).edges.toList =
      g.edges.toList ++ other.edges.toList.filter fun e => e.key ∉ g.edgeKeys := by
  rw [edges_merge, toList_edges_foldl_addEdge (consistent_withNodesOf h other)
    (ends_mem_withNodesOf g hother) hother.nodup_keys, edges_withNodesOf, edgeKeys_withNodesOf]

/-- The edges that are taken are those by which the graph grows. -/
theorem mergeCount_add_edgeCount (g other : Graph) :
    g.mergeCount other + g.edgeCount = (g.merge other).edgeCount := by
  have hcount := snd_foldl_addCounting other.edges.toList (g.withNodesOf other, 0)
  rw [Nat.zero_add, Array.foldl_toList, edgeCount, edges_withNodesOf] at hcount
  rw [edgeCount, edgeCount, edges_merge]
  exact hcount

/-- The keys that are counted are those of the other graph that are new. -/
theorem mergeCount_eq_length (h : g.Consistent) (hother : other.Consistent) :
    g.mergeCount other = (other.edgeKeys.filter fun key => key ∉ g.edgeKeys).length := by
  have hedges : (g.merge other).edgeCount =
      g.edgeCount + (other.edges.toList.filter fun e => e.key ∉ g.edgeKeys).length := by
    rw [edgeCount, ← Array.length_toList, toList_edges_merge h hother, List.length_append,
      Array.length_toList, edgeCount]
  have hkeys : (other.edgeKeys.filter fun key => key ∉ g.edgeKeys).length =
      (other.edges.toList.filter fun e => e.key ∉ g.edgeKeys).length := by
    have hperm : other.edgeKeys.Perm (other.edges.toList.map Edge.key) := List.mergeSort_perm _ _
    rw [(hperm.filter _).length_eq, List.filter_map, List.length_map]
    rfl
  have hcount := mergeCount_add_edgeCount g other
  omega

/-! ## What merging makes of two graphs -/

/-- The third graph is what comes of merging the second one into the first one. -/
structure Merged (g other merged : Graph) : Prop where
  mem_nodeIds_iff : ∀ id, id ∈ merged.nodeIds ↔ id ∈ g.nodeIds ∨ id ∈ other.nodeIds
  mem_edgeKeys_iff : ∀ key, key ∈ merged.edgeKeys ↔ key ∈ g.edgeKeys ∨ key ∈ other.edgeKeys
  /-- The edges of the first graph come first, and then those of the second one that are new. -/
  edges_eq : merged.edges.toList =
    g.edges.toList ++ other.edges.toList.filter fun e => e.key ∉ g.edgeKeys
  /-- A node of the first graph stays what it is, but may name more neighbours after the others. -/
  keeps_node : ∀ id node, g.node? id = some node →
    ∃ node', merged.node? id = some node' ∧ node'.isolated = node.isolated ∧
      node.dependencies.toList <+: node'.dependencies.toList ∧
      node.dependents.toList <+: node'.dependents.toList
  /-- A new node is that of the second graph, and names the neighbours to which edges lead. -/
  copies_node : ∀ id node, g.node? id = none → other.node? id = some node →
    ∃ node', merged.node? id = some node' ∧ node'.isolated = node.isolated ∧
      node'.dependencies.toList =
        ((merged.edges.toList.filter (·.source == id)).map (·.target)).eraseDups ∧
      node'.dependents.toList =
        ((merged.edges.toList.filter (·.target == id)).map (·.source)).eraseDups

theorem eraseDups_prefix (ids more : List String) : ids.eraseDups <+: (ids ++ more).eraseDups := by
  rw [List.eraseDups_append]
  exact List.prefix_append ..

theorem Consistent.merged (h : g.Consistent) (hother : other.Consistent) :
    Merged g other (g.merge other) := by
  have hmerged := consistent_merge h other
  have hedges := toList_edges_merge h hother
  refine { mem_nodeIds_iff := ?_, mem_edgeKeys_iff := fun key => mem_edgeKeys_merge_iff h hother,
           edges_eq := hedges, keeps_node := ?_, copies_node := ?_ }
  · intro id
    rw [mem_nodeIds_iff, contains_merge g hother, Bool.or_eq_true, mem_nodeIds_iff,
      mem_nodeIds_iff]
  · intro id node hnode
    obtain ⟨node', hnode', hsame⟩ := exists_node?_merge_of_left hother hnode
    obtain ⟨-, hdependencies, hdependents⟩ := h.reflects_node hnode
    obtain ⟨-, hdependencies', hdependents'⟩ := hmerged.reflects_node hnode'
    refine ⟨node', hnode', hsame, ?_, ?_⟩
    · rw [hdependencies, hdependencies', edgesOut, edgesOut, hedges, List.filter_append,
        List.map_append]
      exact eraseDups_prefix ..
    · rw [hdependents, hdependents', edgesInto, edgesInto, hedges, List.filter_append,
        List.map_append]
      exact eraseDups_prefix ..
  · intro id node hnone hnode
    obtain ⟨node', hnode', hsame⟩ :=
      exists_node?_merge (g := g) hother (Option.or_eq_some_iff.mpr (.inr ⟨hnone, hnode⟩))
    obtain ⟨-, hdependencies, hdependents⟩ := hmerged.reflects_node hnode'
    exact ⟨node', hnode', hsame, hdependencies, hdependents⟩

/-! ## Merging again -/

theorem withNodesOf_of_contains (hother : other.Consistent)
    (h : ∀ id, other.contains id = true → g.contains id = true) : g.withNodesOf other = g := by
  have hnodes : ∀ node ∈ other.nodes, g.contains node.id = true := by
    intro node hnode
    refine h _ ?_
    rw [← mem_nodeIds_iff, ← hother.map_id_nodes]
    exact List.mem_map_of_mem hnode
  unfold withNodesOf
  revert hnodes
  induction other.nodes with
  | nil => exact fun _ => rfl
  | cons node nodes ih =>
    intro hnodes
    obtain ⟨hnode, hrest⟩ := List.forall_mem_cons.mp hnodes
    have hknown : g.addNode node.isolated = g := if_pos hnode
    rw [List.foldl_cons, hknown]
    exact ih hrest

theorem foldl_addEdge_of_not_accepts {edges : List Edge}
    (h : ∀ e ∈ edges, g.accepts e = false) : edges.foldl addEdge g = g := by
  induction edges with
  | nil => rfl
  | cons e edges ih =>
    obtain ⟨he, hrest⟩ := List.forall_mem_cons.mp h
    rw [List.foldl_cons, addEdge, he, if_neg Bool.false_ne_true]
    exact ih hrest

/-- A graph that has the nodes and the keys of another one takes nothing from it. -/
theorem merge_of_subset (h : g.Consistent) (hother : other.Consistent)
    (hnodes : ∀ id, other.contains id = true → g.contains id = true)
    (hkeys : ∀ key ∈ other.edgeKeys, key ∈ g.edgeKeys) :
    g.merge other = { g with statistics := none } := by
  have hrefused : ∀ e ∈ other.edges.toList, g.accepts e = false := by
    intro e he
    have hsource := hnodes _ (hother.source_mem e he)
    have htarget := hnodes _ (hother.target_mem e he)
    rw [← Bool.not_eq_true, accepts_iff h hsource htarget, not_not]
    exact hkeys _ (mem_edgeKeys_iff.mpr (List.mem_map_of_mem he))
  show { other.edges.foldl addEdge (g.withNodesOf other) with statistics := none } = _
  rw [withNodesOf_of_contains hother hnodes, ← Array.foldl_toList,
    foldl_addEdge_of_not_accepts hrefused]

/-! ## The laws -/

/-- **Merging is a union.** What comes of merging two graphs that are built are the nodes and the
edges of both, the edges that are counted are those that the second graph has more, and whatever
the first graph says of its own nodes and edges stays. Merging once more counts nothing and drops
the statistics at most; and up to structure, neither the order nor the grouping of the graphs
plays a part. -/
theorem Built.merge_union (hg : g.Built) (hother : other.Built) :
    Merged g other (g.merge other) ∧
    g.mergeCount other = (other.edgeKeys.filter fun key => key ∉ g.edgeKeys).length ∧
    (∀ statistics, ({ g.merge other with statistics } : Graph).mergeCount other = 0 ∧
      ({ g.merge other with statistics } : Graph).merge other =
        { g.merge other with statistics := none }) ∧
    (g.merge other).sameStructure (other.merge g) = true ∧
    ∀ third, third.Built →
      ((g.merge other).merge third).sameStructure (g.merge (other.merge third)) = true := by
  have h := hg.consistent
  have h' := hother.consistent
  have hmerged := consistent_merge h other
  refine ⟨h.merged h', mergeCount_eq_length h h', ?_, ?_, ?_⟩
  · intro statistics
    have hagain : ({ g.merge other with statistics } : Graph).Consistent := { hmerged with }
    have hsubset : ∀ key ∈ other.edgeKeys, key ∈ (g.merge other).edgeKeys :=
      fun key hkey => (mem_edgeKeys_merge_iff h h').mpr (.inr hkey)
    constructor
    · rw [mergeCount_eq_length hagain h', List.length_eq_zero_iff, List.filter_eq_nil_iff]
      exact fun key hkey hnew => of_decide_eq_true hnew (hsubset key hkey)
    · refine merge_of_subset hagain h' (fun id hid => ?_) hsubset
      show (g.merge other).contains id = true
      rw [contains_merge g h', hid, Bool.or_true]
  · rw [hmerged.sameStructure_iff (consistent_merge h' g)]
    refine ⟨fun id => ?_, fun key => ?_⟩
    · rw [contains_merge g h', contains_merge other h, Bool.or_comm]
    · rw [mem_edgeKeys_merge_iff h h', mem_edgeKeys_merge_iff h' h, or_comm]
  · intro third hthird
    have h'' := hthird.consistent
    have hrest := consistent_merge h' third
    rw [(consistent_merge hmerged third).sameStructure_iff (consistent_merge h _)]
    refine ⟨fun id => ?_, fun key => ?_⟩
    · rw [contains_merge _ h'', contains_merge g h', contains_merge g hrest,
        contains_merge other h'', Bool.or_assoc]
    · rw [mem_edgeKeys_merge_iff hmerged h'', mem_edgeKeys_merge_iff h h',
        mem_edgeKeys_merge_iff h hrest, mem_edgeKeys_merge_iff h' h'', or_assoc]

/-- Two edges of different kinds between the same nodes, and an edge from a node to itself. -/
def doubled : Graph :=
  (ofPairs ["a", "b"] [("a", "b"), ("b", "b")]).addEdge
    { source := "a", target := "b", kind := .requires }

/-- A graph that shares two nodes and two edges with `doubled`. -/
def shared : Graph :=
  ofPairs ["c", "b", "a"] [("b", "b"), ("b", "a"), ("c", "b"), ("a", "b")]

theorem merge_union_doubled :
    doubled.Built ∧ shared.Built ∧ Merged doubled shared (doubled.merge shared) ∧
      ((doubled.merge shared).edges.toList.map fun e => (e.source, e.target, e.kind)) =
        [("a", "b", .imports), ("b", "b", .imports), ("a", "b", .requires), ("b", "a", .imports),
          ("c", "b", .imports)] ∧
      doubled.mergeCount shared = 2 ∧
      (doubled.merge shared).merge shared = doubled.merge shared ∧
      (doubled.merge shared).sameStructure (shared.merge doubled) = true ∧
      ((doubled.merge shared).merge (ofPairs ["d", "a"] [("a", "d")])).sameStructure
        (doubled.merge (shared.merge (ofPairs ["d", "a"] [("a", "d")]))) = true := by
  have hdoubled : doubled.Built := .addEdge _ (built_ofPairs _ _)
  have hshared : shared.Built := built_ofPairs _ _
  obtain ⟨hmerged, -, hagain, hcommutes, hassociates⟩ := Built.merge_union hdoubled hshared
  exact ⟨hdoubled, hshared, hmerged, by decide +kernel, by decide +kernel, (hagain none).2,
    hcommutes, hassociates _ (built_ofPairs _ _)⟩

end DepGraph.Graph

import DepGraph.Proofs.Depth.CriticalPath
import DepGraph.Proofs.Graph.Annotation
import DepGraph.Proofs.Graph.Structure

/-!
# What depths depend on

On a cycle depths depend on where the search starts and on which dependency it follows first. Both
are chosen by identifier, so nothing is left of the order in which nodes and edges were added. What
was computed is then kept by identifier, and may be listed in any order: the deepest entry stays the
same, and so does what is written into the nodes.

- `Consistent.byId_eq_of_sameStructure`: graphs with the same structure are searched alike.
- `rewritten_write`: what the entries write, in whatever order they are listed.
- `Built.depths_of_sameStructure`: graphs with the same structure have the same depths.
-/

namespace DepGraph

open scoped List

/-- The node of an identifier with its depth. -/
def Node.withDepth (d : Depths) (id : String) (n : Node) : Node :=
  { n with depth := d.depthOf id }

theorem Node.keepsLinks_withDepth (d : Depths) (id : String) : KeepsLinks (withDepth d id) :=
  ⟨fun _ => rfl, fun _ => rfl, fun _ => rfl⟩

namespace Graph

open DepthFirst Depths

variable {g g' : Graph}

/-! ## The search -/

theorem sortIds_eq_of_perm {ids ids' : List String} (h : ids ~ ids') : sortIds ids = sortIds ids' :=
  mergeSort_eq_of_perm h

theorem joins_iff_exists_key {u v : String} :
    g.Joins u v ↔ ∃ kind, (⟨u, v, kind⟩ : EdgeKey) ∈ g.edgeKeys := by
  simp only [mem_edgeKeys_iff, List.mem_map]
  constructor
  · rintro ⟨e, he, rfl, rfl⟩
    exact ⟨e.kind, e, Array.mem_toList_iff.mpr he, rfl⟩
  · rintro ⟨kind, e, he, hkey⟩
    exact ⟨e, Array.mem_toList_iff.mp he, congrArg EdgeKey.source hkey,
      congrArg EdgeKey.target hkey⟩

/-- The search for depths goes over the nodes and the edges alone. -/
theorem Consistent.byId_eq_of_sameStructure (h : g.Consistent) (h' : g'.Consistent)
    (hsame : g.sameStructure g' = true) : g.byId = g'.byId := by
  obtain ⟨hcontains, hkeys⟩ := (h.sameStructure_iff h').mp hsame
  have hids : g.nodeIds = g'.nodeIds := nodeIds_eq_iff.mpr hcontains
  have hnext : ∀ id, sortIds (g.dependencyIds id) = sortIds (g'.dependencyIds id) := by
    intro id
    -- neither list names a node twice, so what they hold fixes them up to the order
    refine sortIds_eq_of_perm ((List.perm_ext_iff_of_nodup (h.nodup_dependencyIds id)
      (h'.nodup_dependencyIds id)).mpr fun dependency => ?_)
    rw [h.mem_dependencyIds_iff, h'.mem_dependencyIds_iff, joins_iff_exists_key,
      joins_iff_exists_key]
    simp only [hkeys]
  simp only [byId, hids, hnext]

theorem Consistent.compute_eq_of_sameStructure (h : g.Consistent) (h' : g'.Consistent)
    (hsame : g.sameStructure g' = true) : compute g = compute g' := by
  unfold compute
  rw [h.byId_eq_of_sameStructure h' hsame]

/-! ## Writing -/

section Write

variable {d : Depths} {entries : List (String × Nat)}

/-- Writing depths is marking the nodes that have one. -/
theorem write_eq_foldl (h : entries ~ d.depths.toList) (g : Graph) :
    write entries g =
      (entries.map (·.1)).foldl (fun g id => g.modifyNode id (Node.withDepth d id)) g := by
  rw [List.foldl_map]
  refine List.foldl_ext _ _ g fun g entry hentry => ?_
  have hdepth : d.depths[entry.1]? = some entry.2 :=
    Std.TreeMap.mem_toList_iff_getElem?_eq_some.mp (h.mem_iff.mp hentry)
  unfold Node.withDepth depthOf
  rw [hdepth]
  rfl

/-- Exactly the nodes that have a depth are given it, in whatever order. -/
theorem rewritten_write (h : entries ~ d.depths.toList) (g : Graph) :
    Rewritten (fun id n => if id ∈ d.depths then Node.withDepth d id n else n) g
      (write entries g) := by
  have hmem : ∀ id, id ∈ entries.map (·.1) ↔ id ∈ d.depths := by
    intro id
    rw [(h.map _).mem_iff, Std.TreeMap.map_fst_toList_eq_keys, Std.TreeMap.mem_keys]
  rw [write_eq_foldl h]
  -- marking again changes nothing, so only who is listed counts
  refine (rewritten_foldl_mark (Node.withDepth d) (fun _ _ => rfl) _ g).congr fun id node _ => ?_
  simp only [hmem]

end Write

section Compute

variable {entries : List (String × Nat)} (h : g.Consistent)
  (hentries : entries ~ (compute g).depths.toList)

include h hentries

/-- Every node gets its depth, since every node has one. -/
theorem Consistent.rewritten_write_compute :
    Rewritten (Node.withDepth (compute g)) g (write entries g) := by
  refine (rewritten_write hentries g).congr fun id node hnode => if_pos ?_
  rw [h.mem_depths_compute_iff, contains_eq_isSome_node?, hnode]
  rfl

theorem Consistent.map_depth_write (id : String) :
    ((write entries g).node? id).map (·.depth) =
      if g.contains id then some ((compute g).depthOf id) else none := by
  rw [(h.rewritten_write_compute hentries).node?_eq, Option.map_map, contains_eq_isSome_node?]
  cases g.node? id <;> rfl

end Compute

theorem rewritten_apply (h : g.Consistent) :
    Rewritten (Node.withDepth (compute g)) g ((compute g).apply g) :=
  h.rewritten_write_compute (.refl _)

/-! ## Both together -/

/-- **Depths depend on the structure of the graph alone.** Two graphs that have the same nodes and
the same keys of edges are completed in the same order, with the same depths, the same parents and
the same critical path, whatever was added first. In whatever order the depths are listed then, the
same node is the deepest one and the same depths are written into the nodes. -/
theorem Built.depths_of_sameStructure (h : g.Built) (h' : g'.Built)
    (hsame : g.sameStructure g' = true) :
    (compute g).order = (compute g').order ∧
    (∀ id : String, (compute g).depths[id]? = (compute g').depths[id]?) ∧
    (∀ id : String, (compute g).parents[id]? = (compute g').parents[id]?) ∧
    (compute g).criticalPath = (compute g').criticalPath ∧
    ∀ entries entries' : List (String × Nat), entries ~ (compute g).depths.toList →
      entries' ~ (compute g').depths.toList →
        deepest entries = deepest entries' ∧
        (deepest entries).elim [] (fun tail => (compute g).chain tail.1) =
          (compute g).criticalPath ∧
        (∀ target id, (write entries target).node? id = ((compute g).apply target).node? id) ∧
        ∀ id, ((write entries g).node? id).map (·.depth) =
          ((write entries' g').node? id).map (·.depth) := by
  have hg := h.consistent
  have hg' := h'.consistent
  have hcompute := hg.compute_eq_of_sameStructure hg' hsame
  refine ⟨by rw [hcompute], fun id => by rw [hcompute], fun id => by rw [hcompute],
    by rw [hcompute], fun entries entries' hentries hentries' => ⟨?_, ?_, ?_, fun id => ?_⟩⟩
  · rw [← hcompute] at hentries'
    exact deepest_eq_of_perm (hentries.trans hentries'.symm)
  · rw [deepest_eq_of_perm hentries, criticalPath]
    cases deepest (compute g).depths.toList <;> rfl
  · intro target id
    rw [(rewritten_write hentries target).node?_eq, apply,
      (rewritten_write (.refl _) target).node?_eq]
  · have hcontains := ((hg.sameStructure_iff hg').mp hsame).1 id
    rw [hg.map_depth_write hentries, hg'.map_depth_write hentries', hcompute, hcontains]

/-- The nodes and edges of `whirl`, added the other way round. -/
def eddy : Graph :=
  ofPairs ["loop", "in", "c", "b", "a"]
    [("loop", "loop"), ("in", "a"), ("in", "b"), ("c", "a"), ("b", "c"), ("a", "b")]

theorem depths_of_sameStructure_whirl :
    whirl.Built ∧ eddy.Built ∧ whirl.sameStructure eddy = true ∧
      whirl.dependencyIds "in" = ["b", "a"] ∧ eddy.dependencyIds "in" = ["a", "b"] ∧
      (compute whirl).order = (compute eddy).order ∧
      (compute whirl).criticalPath = (compute eddy).criticalPath ∧
      deepest (compute whirl).depths.toList = deepest (compute eddy).depths.toList.reverse ∧
      ((write (compute whirl).depths.toList whirl).node? "in").map (·.depth) =
        ((write (compute eddy).depths.toList.reverse eddy).node? "in").map (·.depth) := by
  have hbuilt : whirl.Built := built_ofPairs _ _
  have hbuilt' : eddy.Built := built_ofPairs _ _
  have hsame : whirl.sameStructure eddy = true := by
    have hids : whirl.nodeIds = eddy.nodeIds := by decide +kernel
    have hkeys : whirl.edgeKeys = eddy.edgeKeys := edgeKeys_eq_of_perm (by decide +kernel)
    rw [sameStructure, hids, hkeys, beq_self_eq_true, beq_self_eq_true, Bool.and_self]
  obtain ⟨horder, -, -, hpath, hlisted⟩ := Built.depths_of_sameStructure hbuilt hbuilt' hsame
  obtain ⟨hdeepest, -, -, hwritten⟩ := hlisted _ _ (.refl _) (List.reverse_perm _)
  exact ⟨hbuilt, hbuilt', hsame, by decide +kernel, by decide +kernel, horder, hpath, hdeepest,
    hwritten "in"⟩

end Graph

end DepGraph

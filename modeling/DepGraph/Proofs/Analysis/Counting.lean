import Mathlib.Algebra.Order.Field.Basic
import Mathlib.Algebra.Order.Field.Rat
import Mathlib.Data.List.Perm.Subperm
import Mathlib.Data.List.ProdSigma
import DepGraph.Analysis.Summary
import DepGraph.Proofs.Graph.Annotation

/-!
# What the statistics count

Orphans and leaves are counted by the neighbours that the nodes name, and the density takes the
number of edges. Both can be read off the edges: an edge joins two nodes that are there, and two
edges that join the same nodes are of different kinds.

- `Consistent.countNodes_eq_countP`: nodes are counted by their identifiers.
- `Consistent.edgeCount_le`: how many edges the nodes have room for.
- `Consistent.edgeCount_le_of_simple`: how many of a simple graph.
- `densityOf_eq_densityIn`, `exactDensity_eq_exactRatio`: the density, in rational numbers too.
- `Noted.summarize_counts`: the statistics of every graph that is built.
-/

namespace DepGraph.Graph

/-- No edge leads out of the node or into it. -/
def Orphan (g : Graph) (id : String) : Prop :=
  ∀ e ∈ g.edges, e.source ≠ id ∧ e.target ≠ id

/-- An edge leads into the node, and none out of it. -/
def Leaf (g : Graph) (id : String) : Prop :=
  (∃ e ∈ g.edges, e.target = id) ∧ ∀ e ∈ g.edges, e.source ≠ id

instance (g : Graph) : DecidablePred g.Orphan := fun id =>
  inferInstanceAs (Decidable (∀ e ∈ g.edges, e.source ≠ id ∧ e.target ≠ id))

instance (g : Graph) : DecidablePred g.Leaf := fun id =>
  inferInstanceAs (Decidable ((∃ e ∈ g.edges, e.target = id) ∧ ∀ e ∈ g.edges, e.source ≠ id))

/-- No edge joins a node to itself, and no two edges join the same nodes. -/
structure Simple (g : Graph) : Prop where
  source_ne_target : ∀ e ∈ g.edges, e.source ≠ e.target
  nodup_ends : (g.edges.toList.map fun e => (e.source, e.target)).Nodup

/-- The keys of all edges that the nodes have room for. -/
def possibleKeys (g : Graph) : List EdgeKey :=
  (EdgeKind.all ×ˢ g.nodeIds ×ˢ g.nodeIds).map fun (kind, source, target) => ⟨source, target, kind⟩

theorem length_nodeIds (g : Graph) : g.nodeIds.length = g.nodeCount :=
  Std.TreeMap.length_keys

theorem length_possibleKeys (g : Graph) :
    g.possibleKeys.length = 7 * g.nodeCount * g.nodeCount := by
  have hall : EdgeKind.all.length = 7 := rfl
  rw [possibleKeys, List.length_map, List.length_product, List.length_product, length_nodeIds, hall,
    Nat.mul_assoc]

namespace Consistent

variable {g : Graph} (h : g.Consistent)

include h

/-! ## Nodes -/

/-- Nodes are counted by their identifiers. -/
theorem countNodes_eq_countP {p : Node → Bool} {q : String → Prop} [DecidablePred q]
    (hiff : ∀ id node, g.node? id = some node → (p node = true ↔ q id)) :
    g.countNodes p = g.nodeIds.countP fun id => q id := by
  rw [countNodes, ← h.map_id_nodes, List.countP_map]
  refine List.countP_congr fun node hnode => ?_
  rw [hiff node.id node (h.node?_of_mem_nodes hnode)]
  exact decide_eq_true_iff.symm

theorem isOrphan_iff {id : String} {node : Node} (hnode : g.node? id = some node) :
    node.isOrphan = true ↔ g.Orphan id := by
  rw [Node.isOrphan, Bool.and_eq_true, h.isEmpty_dependencies_iff hnode,
    h.isEmpty_dependents_iff hnode, Orphan]
  simp only [forall_and]

theorem isLeaf_iff {id : String} {node : Node} (hnode : g.node? id = some node) :
    node.isLeaf = true ↔ g.Leaf id := by
  rw [Node.isLeaf, Bool.and_eq_true, h.isEmpty_dependencies_iff hnode, Bool.not_eq_true',
    ← Bool.not_eq_true, h.isEmpty_dependents_iff hnode, Leaf, and_comm]
  simp only [ne_eq, not_forall, not_not, exists_prop]

/-! ## Edges -/

theorem mem_nodeIds_of_mem_edges {e : Edge} (he : e ∈ g.edges.toList) :
    e.source ∈ g.nodeIds ∧ e.target ∈ g.nodeIds :=
  ⟨mem_nodeIds_iff.mpr (h.source_mem e he), mem_nodeIds_iff.mpr (h.target_mem e he)⟩

/-- Two edges differ in an end or in their kinds. -/
theorem edgeCount_le : g.edgeCount ≤ 7 * g.nodeCount * g.nodeCount := by
  have hsub : g.edges.toList.map Edge.key ⊆ g.possibleKeys := by
    intro _ hkey
    obtain ⟨e, he, rfl⟩ := List.mem_map.mp hkey
    have hkind : e.kind ∈ EdgeKind.all := by cases e.kind <;> decide
    exact List.mem_map.mpr ⟨(e.kind, e.source, e.target),
      List.mem_product.mpr ⟨hkind, List.mem_product.mpr (h.mem_nodeIds_of_mem_edges he)⟩, rfl⟩
  have hle := (h.nodup_keys.subperm hsub).length_le
  rwa [List.length_map, length_possibleKeys] at hle

/-- Of the pairs of nodes, those of a node with itself are left out. -/
theorem edgeCount_le_of_simple (hsimple : g.Simple) :
    g.edgeCount ≤ g.nodeCount * (g.nodeCount - 1) := by
  -- with the pair of each node with itself, the ends of the edges still are different pairs
  have hdiagonal : (g.nodeIds.map fun id => (id, id)).Nodup :=
    Std.TreeMap.nodup_keys.map fun _ _ heq => (Prod.mk.inj heq).1
  have hnodup : ((g.edges.toList.map fun e => (e.source, e.target)) ++
      g.nodeIds.map fun id => (id, id)).Nodup := by
    refine hsimple.nodup_ends.append hdiagonal fun ends hends hloop => ?_
    obtain ⟨e, he, rfl⟩ := List.mem_map.mp hends
    obtain ⟨id, -, heq⟩ := List.mem_map.mp hloop
    obtain ⟨hsource, htarget⟩ := Prod.mk.inj heq
    exact hsimple.source_ne_target e (Array.mem_toList_iff.mp he) (hsource.symm.trans htarget)
  have hsub : ((g.edges.toList.map fun e => (e.source, e.target)) ++
      g.nodeIds.map fun id => (id, id)) ⊆ g.nodeIds ×ˢ g.nodeIds := by
    refine List.append_subset.mpr ⟨fun _ hends => ?_, fun _ hloop => ?_⟩
    · obtain ⟨e, he, rfl⟩ := List.mem_map.mp hends
      exact List.mem_product.mpr (h.mem_nodeIds_of_mem_edges he)
    · obtain ⟨id, hid, rfl⟩ := List.mem_map.mp hloop
      exact List.mem_product.mpr ⟨hid, hid⟩
  have hle := (hnodup.subperm hsub).length_le
  rw [List.length_append, List.length_map, List.length_map, List.length_product,
    length_nodeIds] at hle
  rw [Nat.mul_sub_one]
  exact Nat.le_sub_of_add_le hle

end Consistent

/-! ## The density -/

section Density

variable {α : Type} [Sub α] [Mul α] [Div α] [LT α] [DecidableLT α]

/-- The density in numbers of the given kind. -/
def densityIn (ofNat : Nat → α) (zero one : α) (nodes edges : Nat) : α :=
  if nodes ≤ 1 then zero
  else
    let possible := ofNat nodes * (ofNat nodes - one)
    let ratio := ofNat edges / possible
    if ratio < zero then zero else if ratio > one then one else ratio

end Density

/-- The density is computed in floating-point numbers. -/
theorem densityOf_eq_densityIn : densityOf = densityIn Nat.toFloat 0.0 1.0 := rfl

/-- The density in rational numbers. -/
def exactDensity (nodes edges : Nat) : ℚ :=
  densityIn (fun n => (n : ℚ)) 0 1 nodes edges

/-- The share of the possible edges. -/
def exactRatio (nodes edges : Nat) : ℚ :=
  edges / (nodes * (nodes - 1))

theorem exactRatio_mem {nodes edges : Nat} (hnodes : 2 ≤ nodes)
    (hedges : edges ≤ nodes * (nodes - 1)) :
    0 ≤ exactRatio nodes edges ∧ exactRatio nodes edges ≤ 1 := by
  have hone : ((nodes - 1 : Nat) : ℚ) = nodes - 1 := by
    rw [Nat.cast_sub (Nat.le_of_succ_le hnodes), Nat.cast_one]
  have hpossible : ((nodes * (nodes - 1) : Nat) : ℚ) = nodes * (nodes - 1) := by
    rw [Nat.cast_mul, hone]
  have hpos : 0 < nodes * (nodes - 1) := Nat.mul_pos (by omega) (by omega)
  unfold exactRatio
  rw [← hpossible]
  exact ⟨div_nonneg (Nat.cast_nonneg _) (Nat.cast_nonneg _),
    (div_le_one (Nat.cast_pos.mpr hpos)).mpr (Nat.cast_le.mpr hedges)⟩

/-- A ratio between zero and one counts as it is. -/
theorem exactDensity_eq_exactRatio {nodes edges : Nat} (hnodes : 2 ≤ nodes)
    (hmem : 0 ≤ exactRatio nodes edges ∧ exactRatio nodes edges ≤ 1) :
    exactDensity nodes edges = exactRatio nodes edges := by
  unfold exactDensity densityIn
  rw [if_neg (by omega)]
  exact (if_neg (not_lt.mpr hmem.1)).trans (if_neg (not_lt.mpr hmem.2))

/-! ## The statistics -/

/-- **The statistics agree with the edges.** The orphans and the leaves that are counted are those
of the edges, all nodes and edges are counted, and between two nodes there is at most one edge of
each kind. In a simple graph the edges are at most one for each pair of different nodes: the
density, which is cut off at zero and at one, would in rational numbers be the share of the possible
edges as it is. -/
theorem Noted.summarize_counts {g : Graph} (h : g.Noted) :
    g.summarize.orphanNodes = (g.nodeIds.countP fun id => g.Orphan id) ∧
      g.summarize.leafNodes = (g.nodeIds.countP fun id => g.Leaf id) ∧
      g.summarize.totalNodes = g.nodeIds.length ∧ g.summarize.totalEdges = g.edges.size ∧
      g.summarize.totalEdges ≤ 7 * g.nodeCount * g.nodeCount ∧
      g.summarize.density = densityIn Nat.toFloat 0.0 1.0 g.nodeCount g.summarize.totalEdges ∧
      (g.Simple → g.summarize.totalEdges ≤ g.nodeCount * (g.nodeCount - 1) ∧
        (2 ≤ g.nodeCount →
          (0 ≤ exactRatio g.nodeCount g.summarize.totalEdges ∧
            exactRatio g.nodeCount g.summarize.totalEdges ≤ 1) ∧
          exactDensity g.nodeCount g.summarize.totalEdges =
            exactRatio g.nodeCount g.summarize.totalEdges)) := by
  have hg := h.consistent
  refine ⟨hg.countNodes_eq_countP fun _ _ => hg.isOrphan_iff,
    hg.countNodes_eq_countP fun _ _ => hg.isLeaf_iff, (length_nodeIds g).symm, rfl, hg.edgeCount_le,
    congrFun₂ densityOf_eq_densityIn _ _, fun hsimple => ?_⟩
  have hle := hg.edgeCount_le_of_simple hsimple
  refine ⟨hle, fun hnodes => ?_⟩
  have hmem := exactRatio_mem hnodes hle
  exact ⟨hmem, exactDensity_eq_exactRatio hnodes hmem⟩

/-- A node that depends on two, of which one depends on the other, and a node by itself. -/
def sparse : Graph :=
  ofPairs ["a", "b", "c", "d"] [("a", "b"), ("b", "c"), ("a", "c")]

theorem summarize_counts_sparse :
    sparse.Noted ∧ sparse.Simple ∧ 2 ≤ sparse.nodeCount ∧
      sparse.summarize.orphanNodes = 1 ∧ sparse.summarize.leafNodes = 1 ∧
      sparse.summarize.totalEdges ≤ 4 * 3 ∧ exactDensity 4 3 = 1 / 4 := by
  have hnoted : sparse.Noted := (built_ofPairs _ _).noted
  have hsimple : sparse.Simple := ⟨by decide +kernel, by decide +kernel⟩
  have htwo : 2 ≤ sparse.nodeCount := by decide +kernel
  obtain ⟨horphans, hleaves, -, -, -, -, hedges⟩ := Noted.summarize_counts hnoted
  obtain ⟨hle, hexact⟩ := hedges hsimple
  have hnodes : sparse.nodeCount = 4 := by decide +kernel
  have hcount : sparse.summarize.totalEdges = 3 := by decide +kernel
  obtain ⟨-, hdensity⟩ := hexact htwo
  rw [hnodes] at hle
  rw [hnodes, hcount] at hdensity
  refine ⟨hnoted, hsimple, htwo, horphans.trans (by decide +kernel),
    hleaves.trans (by decide +kernel), hle, hdensity.trans (by decide +kernel)⟩

end DepGraph.Graph

import DepGraph.Proofs.Graph.Union

/-!
# The structure of a graph

Two graphs have the same structure if they have the same nodes and the same keys of edges. Both are
listed in an order of their own, whatever the order in which they were added, so the lists are equal
as soon as they hold the same.

- `mergeSort_eq_of_perm`: why the order of adding plays no part.
- `EdgeKey.eq_of_order_eq`: keys come in a linear order.
- `nodeIds_eq_iff`, `Consistent.edgeKeys_eq_iff`: when the lists are equal.
- `map_nodes_eq`: what nodes agree on is listed alike.
- `Consistent.sameStructure_iff`: when two graphs have the same structure.
-/

namespace DepGraph

/-! ## Sorting by a comparison -/

section Sorting

variable {α : Type} {cmp : α → α → Ordering} [Std.TransCmp cmp]

theorem isLE_total (a b : α) : ((cmp a b).isLE || (cmp b a).isLE) = true := by
  have hswap : cmp b a = (cmp a b).swap := Std.OrientedCmp.eq_swap
  rw [hswap]
  cases cmp a b <;> rfl

theorem pairwise_mergeSort (l : List α) :
    (l.mergeSort fun a b => (cmp a b).isLE).Pairwise fun a b => (cmp a b).isLE = true :=
  List.pairwise_mergeSort (fun _ _ _ => Std.TransCmp.isLE_trans) isLE_total l

/-- Sorting forgets in which order the elements were listed, if no two of them are equivalent. -/
theorem mergeSort_eq_of_perm [Std.LawfulEqCmp cmp] {l l' : List α} (h : l.Perm l') :
    (l.mergeSort fun a b => (cmp a b).isLE) = l'.mergeSort fun a b => (cmp a b).isLE := by
  have hperm := (List.mergeSort_perm l fun a b => (cmp a b).isLE).trans
    (h.trans (List.mergeSort_perm l' fun a b => (cmp a b).isLE).symm)
  refine hperm.eq_of_pairwise (fun a b _ _ hle hge => ?_) (pairwise_mergeSort l)
    (pairwise_mergeSort l')
  exact Std.LawfulEqCmp.eq_of_compare (Std.OrientedCmp.isLE_antisymm hle hge)

end Sorting

/-! ## The order of keys -/

theorem EdgeKind.rank_injective {a b : EdgeKind} (h : a.rank = b.rank) : a = b := by
  revert h
  cases a <;> cases b <;> decide

namespace EdgeKey

/-- Keys are compared by their sources, then by their targets, then by their kinds. -/
theorem order_eq_compareLex :
    order = compareLex (compareOn source)
      (compareLex (compareOn target) (compareOn fun key => key.kind.rank)) := rfl

instance : Std.TransCmp order := by
  rw [order_eq_compareLex]
  infer_instance

theorem eq_of_order_eq {a b : EdgeKey} (h : order a b = .eq) : a = b := by
  obtain ⟨hsource, h⟩ := Ordering.then_eq_eq.mp h
  obtain ⟨htarget, hrank⟩ := Ordering.then_eq_eq.mp h
  obtain ⟨source, target, kind⟩ := a
  obtain ⟨source', target', kind'⟩ := b
  obtain rfl : source = source' := Std.LawfulEqOrd.eq_of_compare hsource
  obtain rfl : target = target' := Std.LawfulEqOrd.eq_of_compare htarget
  obtain rfl : kind = kind' := EdgeKind.rank_injective (Std.LawfulEqOrd.eq_of_compare hrank)
  rfl

instance : Std.LawfulEqCmp order where
  eq_of_compare := eq_of_order_eq

end EdgeKey

/-! ## Comparing graphs -/

namespace Graph

variable {g g' : Graph}

/-- The identifiers are listed in order, so the lists are equal if they hold the same. -/
theorem nodeIds_eq_iff : g.nodeIds = g'.nodeIds ↔ ∀ id, g.contains id = g'.contains id := by
  constructor
  · intro h id
    rw [Bool.eq_iff_iff, ← mem_nodeIds_iff, h, mem_nodeIds_iff]
  · intro h
    have hmem : ∀ id, id ∈ g.nodeIds ↔ id ∈ g'.nodeIds := fun id => by
      rw [mem_nodeIds_iff, mem_nodeIds_iff, h]
    have hperm := (List.perm_ext_iff_of_nodup Std.TreeMap.nodup_keys Std.TreeMap.nodup_keys).mpr hmem
    refine hperm.eq_of_pairwise ?_ Std.TreeMap.ordered_keys Std.TreeMap.ordered_keys
    intro id other _ _ hlt hgt
    exact absurd (Std.OrientedCmp.gt_of_lt hlt) (by rw [hgt]; decide)

/-- The nodes are those under the listed identifiers, in that order. -/
theorem nodes_eq_filterMap (g : Graph) : g.nodes = g.nodeIds.filterMap g.node? := by
  unfold nodes nodeIds
  rw [← Std.TreeMap.map_fst_toList_eq_keys, List.filterMap_map, ← List.filterMap_eq_map]
  refine List.filterMap_congr fun kept hkept => ?_
  have hentry : g.lookup? kept.1 = some kept.2 :=
    Std.TreeMap.mem_toList_iff_getElem?_eq_some.mp hkept
  exact (congrArg (Option.map (·.node)) hentry).symm

/-- What agrees under every identifier is listed alike. -/
theorem map_nodes_eq {α : Type} {f : Node → α}
    (h : ∀ id, (g.node? id).map f = (g'.node? id).map f) : g.nodes.map f = g'.nodes.map f := by
  have hids : g.nodeIds = g'.nodeIds := nodeIds_eq_iff.mpr fun id => by
    rw [contains_eq_isSome_node?, contains_eq_isSome_node?, ← Option.isSome_map (f := f), h id,
      Option.isSome_map]
  rw [nodes_eq_filterMap, nodes_eq_filterMap, List.map_filterMap, List.map_filterMap, hids]
  exact List.filterMap_congr fun id _ => h id

theorem pairwise_edgeKeys (g : Graph) : g.edgeKeys.Pairwise fun a b => EdgeKey.le a b = true :=
  pairwise_mergeSort _

theorem edgeKeys_eq_of_perm
    (h : (g.edges.toList.map Edge.key).Perm (g'.edges.toList.map Edge.key)) :
    g.edgeKeys = g'.edgeKeys :=
  mergeSort_eq_of_perm h

theorem Consistent.edgeKeys_eq_iff (h : g.Consistent) (h' : g'.Consistent) :
    g.edgeKeys = g'.edgeKeys ↔ ∀ key, key ∈ g.edgeKeys ↔ key ∈ g'.edgeKeys := by
  constructor
  · intro heq key
    rw [heq]
  · intro hmem
    refine edgeKeys_eq_of_perm ((List.perm_ext_iff_of_nodup h.nodup_keys h'.nodup_keys).mpr ?_)
    simpa only [mem_edgeKeys_iff] using hmem

/-- Graphs have the same structure exactly if they have the same nodes and the same keys. -/
theorem Consistent.sameStructure_iff (h : g.Consistent) (h' : g'.Consistent) :
    g.sameStructure g' = true ↔ (∀ id, g.contains id = g'.contains id) ∧
      ∀ key, key ∈ g.edgeKeys ↔ key ∈ g'.edgeKeys := by
  unfold sameStructure
  rw [Bool.and_eq_true, beq_iff_eq, beq_iff_eq, nodeIds_eq_iff, h.edgeKeys_eq_iff h']

end Graph

end DepGraph

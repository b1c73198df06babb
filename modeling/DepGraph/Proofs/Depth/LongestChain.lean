import Mathlib.Order.Bounds.Basic
import DepGraph.Proofs.Cycle.Detection
import DepGraph.Proofs.Depth.Computed

/-!
# Longest chains

In a graph without cycles a search leaves every node after all its dependencies. So every dependency
counts with its own depth, no chain of parents is cut short, and depths are lengths of paths.

- `Consistent.before_of_joins`: an edge leads to a node that is left earlier.
- `Consistent.length_le_depthOf`, `Consistent.length_chain`: no path from a node is longer than its
  depth, and the chain of its parents is as long.
- `Built.longest_chains`: what depths, the greatest depth and the critical path are.
-/

namespace DepGraph.Graph

open DepthFirst Depths
open scoped List

variable {g : Graph} {id : String}

/-! ## Computed depths and the graph -/

theorem sound_compute (g : Graph) : Sound g.byId.next (compute g) :=
  sound_ofOrder _ _

theorem order_compute (g : Graph) : (compute g).order = completionOrder g.byId :=
  order_ofOrder (nodup_completionOrder g.byId)

namespace Consistent

variable (h : g.Consistent)

include h

/-- Exactly the nodes have a depth. -/
theorem mem_depths_compute_iff : id ∈ (compute g).depths ↔ g.contains id = true := by
  have hclosed : ∀ u, ∀ v ∈ g.byId.next u, v ∈ g.byId.keys := by
    intro u v hv
    exact mem_nodeIds_iff.mpr (h.contains_of_joins (h.mem_next_byId_iff.mp hv)).2
  rw [(sound_compute g).mem_iff, order_compute, mem_completionOrder_iff hclosed]
  exact mem_nodeIds_iff

/-- Every node fits its dependencies. -/
theorem fits_compute (hid : g.contains id = true) : Fits g.byId.next (compute g) id :=
  (sound_compute g).fits id (((sound_compute g).mem_iff id).mp (h.mem_depths_compute_iff.mpr hid))

/-- A parent is a dependency. -/
theorem joins_of_parent {parent : String} (hparent : (compute g).parents[id]? = some parent) :
    g.Joins id parent := by
  have hid := h.mem_depths_compute_iff.mp (mem_depths_of_parent hparent)
  exact h.mem_next_byId_iff.mp ((h.fits_compute hid).parent parent hparent).1

/-- A chain follows the edges. -/
theorem path_chain (hid : g.contains id = true) : g.Path ((compute g).chain id) where
  contains := by
    induction id using (compute g).parent_induction with
    | last id hnone =>
      rw [chain_of_none hnone]
      exact List.forall_mem_singleton.mpr hid
    | next id parent hparent ih =>
      rw [chain_of_some hparent]
      exact List.forall_mem_cons.mpr
        ⟨hid, ih (h.contains_of_joins (h.joins_of_parent hparent)).2⟩
  linked := ((compute g).isChain_chain id).imp fun _ _ => h.joins_of_parent

/-! ## Without cycles -/

section Acyclic

variable (hacyclic : Acyclic g.Joins)

include hacyclic

/-- An edge leads to a node that is left earlier. -/
theorem before_of_joins {u v : String} (hjoins : g.Joins u v) : [v, u] <+ (compute g).order := by
  rw [order_compute]
  refine (before_or_closing (h.mem_next_byId_iff.mpr hjoins)).resolve_right fun hclosing => ?_
  -- without cycles the search has closed none
  rw [(cycles_eq_nil_iff_of_next fun _ _ => h.mem_next_byId_iff).mpr hacyclic] at hclosing
  exact nomatch hclosing

theorem succ_depthOf_le_of_joins {u v : String} (hjoins : g.Joins u v) :
    (compute g).depthOf v + 1 ≤ (compute g).depthOf u :=
  (h.fits_compute (h.contains_of_joins hjoins).1).ge v (h.mem_next_byId_iff.mpr hjoins)
    (h.before_of_joins hacyclic hjoins)

/-- No path from a node has more edges than the node is deep. -/
theorem length_le_depthOf {rest : List String} (hlinked : (id :: rest).IsChain g.Joins) :
    rest.length ≤ (compute g).depthOf id := by
  induction rest generalizing id with
  | nil => exact Nat.zero_le _
  | cons next rest ih =>
    obtain ⟨hjoins, hrest⟩ := List.isChain_cons_cons.mp hlinked
    calc rest.length + 1 ≤ (compute g).depthOf next + 1 := Nat.succ_le_succ (ih hrest)
      _ ≤ (compute g).depthOf id := h.succ_depthOf_le_of_joins hacyclic hjoins

/-- Only a node without dependencies has no parent. -/
theorem dependencyIds_of_no_parent (hid : g.contains id = true)
    (hnone : (compute g).parents[id]? = none) :
    g.dependencyIds id = [] ∧ (compute g).depthOf id = 0 := by
  have hfits := h.fits_compute hid
  -- all its dependencies were left before, so one of them would be the parent
  have hnext : g.byId.next id = [] := by
    refine List.eq_nil_iff_forall_not_mem.mpr fun dependency hdependency => ?_
    refine (hfits.cut hnone).2 dependency hdependency ?_
    exact h.before_of_joins hacyclic (h.mem_next_byId_iff.mp hdependency)
  refine ⟨?_, hfits.zero_iff.mpr hnext⟩
  refine List.eq_nil_iff_forall_not_mem.mpr fun dependency hdependency => ?_
  have hmem := h.mem_next_byId_iff.mpr (h.mem_dependencyIds_iff.mp hdependency)
  rw [hnext] at hmem
  exact nomatch hmem

/-- The chain of a node goes all the way down. -/
theorem length_chain (hid : g.contains id = true) :
    ((compute g).chain id).length = (compute g).depthOf id + 1 ∧
      ∃ last, ((compute g).chain id).getLast? = some last ∧ g.dependencyIds last = [] := by
  obtain ⟨last, hlast, hnone, hlength⟩ := (compute g).exists_last_chain id
  have hcontains := (h.path_chain hid).contains last (List.mem_of_getLast? hlast)
  obtain ⟨hdependencies, hzero⟩ := h.dependencyIds_of_no_parent hacyclic hcontains hnone
  rw [hzero, Nat.add_zero] at hlength
  exact ⟨hlength, last, hlast, hdependencies⟩

/-- The depth of a node is the number of edges on a longest path from it. -/
theorem isGreatest_depthOf (hid : g.contains id = true) :
    IsGreatest {count | ∃ rest, g.Path (id :: rest) ∧ rest.length = count}
      ((compute g).depthOf id) := by
  constructor
  · -- the chain of the node is such a path
    obtain ⟨hlength, -⟩ := h.length_chain hacyclic hid
    have hpath := h.path_chain hid
    have hhead := (compute g).head?_chain id
    match hchain : (compute g).chain id with
    | [] => rw [hchain] at hhead; exact nomatch hhead
    | first :: rest =>
      rw [hchain] at hhead hpath hlength
      obtain rfl : first = id := Option.some.inj hhead
      exact ⟨rest, hpath, Nat.succ.inj hlength⟩
  · rintro count ⟨rest, hpath, rfl⟩
    exact h.length_le_depthOf hacyclic hpath.linked

/-- The greatest depth is the number of edges on a longest path; that of no nodes has none. -/
theorem isGreatest_maxDepth :
    IsGreatest {count | ∃ members, g.Path members ∧ members.length - 1 = count}
      (compute g).maxDepth := by
  constructor
  · by_cases hnodes : ∃ id, g.contains id = true
    · obtain ⟨id, hid⟩ := hnodes
      obtain ⟨first, -, hfirst, hmax, -⟩ :=
        exists_criticalPath_eq_chain (h.mem_depths_compute_iff.mpr hid)
      have hcontains := h.mem_depths_compute_iff.mp hfirst
      refine ⟨(compute g).chain first, h.path_chain hcontains, ?_⟩
      rw [(h.length_chain hacyclic hcontains).1, hmax, Nat.add_sub_cancel]
    · refine ⟨[], ⟨(fun id hid => nomatch hid), List.isChain_nil⟩, ?_⟩
      refine (Nat.le_zero.mp (((compute g).maxDepth_le_iff 0).mpr fun entry hentry => ?_)).symm
      have hid := (((compute g).mem_toList_depths_iff entry.1 entry.2).mp hentry).1
      exact absurd ⟨entry.1, h.mem_depths_compute_iff.mp hid⟩ hnodes
  · rintro count ⟨_ | ⟨id, rest⟩, hpath, rfl⟩
    · exact Nat.zero_le _
    · have hid := h.mem_depths_compute_iff.mpr (hpath.contains id List.mem_cons_self)
      exact (h.length_le_depthOf hacyclic hpath.linked).trans (depthOf_le_maxDepth hid)

end Acyclic

theorem exists_contains (hnodes : g.isEmpty = false) : ∃ id, g.contains id = true := by
  have hcount : 0 < g.nodeCount := Nat.pos_of_ne_zero (beq_eq_false_iff_ne.mp hnodes)
  obtain ⟨id, entry, hentry, -⟩ := h.place_onto 0 hcount
  exact ⟨id, by rw [contains_eq_isSome, hentry]; rfl⟩

end Consistent

/-- **Depths are the lengths of longest paths in a graph without cycles.** The depth of a node
counts the edges of a longest path from it, and the greatest depth those of a longest path at all.
The critical path of a graph that has nodes is a path of that length. It starts from the first of
the deepest nodes by identifier, every step is one down in depth, and it ends where there are no
dependencies. -/
theorem Built.longest_chains (h : g.Built) (hacyclic : Acyclic g.Joins) :
    (∀ id, g.contains id = true → ∃ depth, (compute g).depths[id]? = some depth ∧
      IsGreatest {count | ∃ rest, g.Path (id :: rest) ∧ rest.length = count} depth) ∧
    IsGreatest {count | ∃ members, g.Path members ∧ members.length - 1 = count}
      (compute g).maxDepth ∧
    (g.isEmpty = false →
      g.Path (compute g).criticalPath ∧ (compute g).criticalPath.Nodup ∧
      (compute g).criticalPath.length = (compute g).maxDepth + 1 ∧
      (∃ first, (compute g).criticalPath.head? = some first ∧
        (compute g).depthOf first = (compute g).maxDepth ∧
        ∀ id, g.contains id = true → (compute g).depthOf id = (compute g).maxDepth → first ≤ id) ∧
      (compute g).criticalPath.IsChain
        (fun u v => (compute g).depthOf u = (compute g).depthOf v + 1) ∧
      ∃ last, (compute g).criticalPath.getLast? = some last ∧ g.dependencyIds last = []) := by
  have hg := h.consistent
  refine ⟨fun id hid => ?_, hg.isGreatest_maxDepth hacyclic, fun hnodes => ?_⟩
  · exact ⟨_, getElem?_depths_of_mem (hg.mem_depths_compute_iff.mpr hid),
      hg.isGreatest_depthOf hacyclic hid⟩
  · obtain ⟨id, hid⟩ := hg.exists_contains hnodes
    obtain ⟨first, hpath, hfirst, hmax, hleast⟩ :=
      exists_criticalPath_eq_chain (hg.mem_depths_compute_iff.mpr hid)
    have hcontains := hg.mem_depths_compute_iff.mp hfirst
    obtain ⟨hlength, hlast⟩ := hg.length_chain hacyclic hcontains
    rw [hpath]
    refine ⟨hg.path_chain hcontains, nodup_chain _ _, by rw [hlength, hmax], ?_, ?_, hlast⟩
    · refine ⟨first, head?_chain _ _, hmax, fun other hother => ?_⟩
      exact hleast other (hg.mem_depths_compute_iff.mpr hother)
    · exact ((compute g).isChain_chain first).imp fun u v huv => (compute g).depthOf_eq_succ huv

/-- Two ways from "app" to "leaf", of which one is longer. -/
def branches : Graph :=
  ofPairs ["app", "short", "long1", "long2", "leaf"]
    [("app", "short"), ("short", "leaf"), ("app", "long1"), ("long1", "long2"), ("long2", "leaf")]

theorem acyclic_branches : Acyclic branches.Joins := by
  refine .of_rank ["leaf", "long2", "long1", "short", "app"].idxOf ?_
  have hfalls : ∀ e ∈ branches.edges,
      ["leaf", "long2", "long1", "short", "app"].idxOf e.target <
        ["leaf", "long2", "long1", "short", "app"].idxOf e.source := by
    decide +kernel
  rintro u v ⟨e, he, rfl, rfl⟩
  exact hfalls e he

theorem longest_chains_branches :
    branches.Built ∧ Acyclic branches.Joins ∧ branches.isEmpty = false ∧
      3 ≤ (compute branches).maxDepth ∧
      (compute branches).criticalPath.length = (compute branches).maxDepth + 1 ∧
      branches.Path (compute branches).criticalPath := by
  have hbuilt : branches.Built := built_ofPairs _ _
  have hnodes : branches.isEmpty = false := by decide +kernel
  have hlong : branches.Path ["app", "long1", "long2", "leaf"] := by
    refine ⟨by decide +kernel, ?_⟩
    unfold Joins
    decide +kernel
  obtain ⟨-, hmax, hcritical⟩ := Built.longest_chains hbuilt acyclic_branches
  obtain ⟨hpath, -, hlength, -⟩ := hcritical hnodes
  exact ⟨hbuilt, acyclic_branches, hnodes, hmax.2 ⟨_, hlong, rfl⟩, hlength, hpath⟩

end DepGraph.Graph

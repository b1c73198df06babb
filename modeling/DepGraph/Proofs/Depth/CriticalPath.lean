import Mathlib.Data.List.Perm.Subperm
import Mathlib.Order.Bounds.Basic
import DepGraph.Proofs.Depth.LongestChain
import DepGraph.Proofs.Graph.Reachability

/-!
# Depths and the critical path with cycles

On a cycle some dependency is still on the way of the search when a node is left. It counts one
step, whatever its own depth is, and it is never followed. So depths stay what the recurrence says
of the dependencies that were left before, and a chain of parents ends early at worst at depth one,
where every dependency leads back.

- `Fits.isGreatest`: the recurrence.
- `Consistent.succ_depthOf_le_of_not_reaches`: only an edge of a cycle can fail to raise the depth.
- `Consistent.last_of_chain`: where a chain of parents ends.
- `Built.depths_with_cycles`: what depths and the critical path of any graph are.
-/

namespace DepGraph

open scoped List

/-- A node that has dependencies is one step deeper than the deepest dependency left before it, and
at least at depth one. -/
theorem Depths.Fits.isGreatest {next : String → List String} {d : Depths} {id : String}
    (h : Fits next d id) (hnext : next id ≠ []) :
    IsGreatest (insert 1 {count | ∃ dependency ∈ next id,
      [dependency, id] <+ d.order ∧ d.depthOf dependency + 1 = count}) (d.depthOf id) := by
  have hpos : 1 ≤ d.depthOf id := Nat.pos_of_ne_zero (mt h.zero_iff.mp hnext)
  constructor
  · match hparent : d.parents[id]? with
    | some parent =>
      obtain ⟨hdependency, hbefore⟩ := h.parent parent hparent
      exact .inr ⟨parent, hdependency, hbefore, (d.depthOf_eq_succ hparent).symm⟩
    | none =>
      obtain ⟨hone, -⟩ := h.cut hparent
      exact .inl (Nat.le_antisymm hone hpos)
  · rintro count (rfl | ⟨dependency, hdependency, hbefore, rfl⟩)
    · exact hpos
    · exact h.ge dependency hdependency hbefore

namespace Graph

open DepthFirst Depths

variable {g : Graph} {id : String}

namespace Consistent

variable (h : g.Consistent)

include h

theorem mem_next_byId_iff_mem_dependencyIds {dependency : String} :
    dependency ∈ g.byId.next id ↔ dependency ∈ g.dependencyIds id :=
  h.mem_next_byId_iff.trans h.mem_dependencyIds_iff.symm

theorem next_byId_eq_nil_iff : g.byId.next id = [] ↔ g.dependencyIds id = [] := by
  simp only [List.eq_nil_iff_forall_not_mem, h.mem_next_byId_iff_mem_dependencyIds]

/-- An edge leads to a node that is left earlier, or to one that reaches its source. -/
theorem before_or_reaches_of_joins {u v : String} (hjoins : g.Joins u v) :
    [v, u] <+ (compute g).order ∨ g.Reaches v u := by
  rw [order_compute]
  exact before_or_reaches (fun _ _ => h.mem_next_byId_iff) hjoins

/-- An edge that is on no cycle raises the depth. -/
theorem succ_depthOf_le_of_not_reaches {u v : String} (hjoins : g.Joins u v)
    (hback : ¬ g.Reaches v u) : (compute g).depthOf v + 1 ≤ (compute g).depthOf u := by
  have hbefore := (h.before_or_reaches_of_joins hjoins).resolve_right hback
  have hfits := h.fits_compute (h.contains_of_joins hjoins).1
  exact hfits.ge v (h.mem_next_byId_iff.mpr hjoins) hbefore

/-- A node without a parent has no dependencies, or is at depth one with all of them leading
back. -/
theorem depthOf_of_no_parent (hid : g.contains id = true)
    (hnone : (compute g).parents[id]? = none) :
    (compute g).depthOf id = 0 ∨
      ((compute g).depthOf id = 1 ∧
        ∀ dependency ∈ g.dependencyIds id, g.Reaches dependency id) := by
  obtain ⟨hone, hnot⟩ := (h.fits_compute hid).cut hnone
  rcases Nat.le_one_iff_eq_zero_or_eq_one.mp hone with hzero | hone
  · exact .inl hzero
  · refine .inr ⟨hone, fun dependency hdependency => ?_⟩
    have hnext := h.mem_next_byId_iff_mem_dependencyIds.mpr hdependency
    have hjoins := h.mem_next_byId_iff.mp hnext
    exact (h.before_or_reaches_of_joins hjoins).resolve_left (hnot dependency hnext)

/-- A chain of parents ends at depth zero, or at depth one where all dependencies lead back, so it
is at most one step short of its depth. -/
theorem last_of_chain (hid : g.contains id = true) :
    ∃ last, ((compute g).chain id).getLast? = some last ∧
      ((compute g).depthOf last = 0 ∨ ((compute g).depthOf last = 1 ∧
        ∀ dependency ∈ g.dependencyIds last, g.Reaches dependency last)) ∧
      (compute g).depthOf id ≤ ((compute g).chain id).length := by
  obtain ⟨last, hlast, hnone, hlength⟩ := (compute g).exists_last_chain id
  have hcontains := (h.path_chain hid).contains last (List.mem_of_getLast? hlast)
  have hend := h.depthOf_of_no_parent hcontains hnone
  refine ⟨last, hlast, hend, ?_⟩
  have hone : (compute g).depthOf last ≤ 1 := by
    rcases hend with hzero | ⟨hone, -⟩ <;> omega
  omega

omit h in
/-- A path that meets no node twice is no longer than there are nodes. -/
theorem length_le_nodeCount {members : List String} (hpath : g.Path members)
    (hnodup : members.Nodup) : members.length ≤ g.nodeCount := by
  have hsubset : members ⊆ g.nodeIds := fun id hid => mem_nodeIds_iff.mpr (hpath.contains id hid)
  calc members.length ≤ g.nodeIds.length := (hnodup.subperm hsubset).length_le
    _ = g.nodeCount := Std.TreeMap.length_keys

end Consistent

/-- **Depths and the critical path of any graph.** Exactly the nodes without dependencies are at
depth zero. Any other is at the greatest of depth one and of one step more than the dependencies
that were left before it, so that an edge raises the depth unless its target reaches its source. The
critical path of a graph that has nodes meets no node twice, follows the edges, starts from the
first of the deepest nodes by identifier and falls one step in depth at a time. It ends at depth
zero, or at depth one where every dependency leads back. So it has at least as many nodes as the
greatest depth says, and at most as many as there are. -/
theorem Built.depths_with_cycles (h : g.Built) :
    (∀ id, g.contains id = true → ∃ depth, (compute g).depths[id]? = some depth ∧
      (depth = 0 ↔ g.dependencyIds id = []) ∧
      (g.dependencyIds id ≠ [] → IsGreatest (insert 1 {count | ∃ dependency ∈ g.dependencyIds id,
        [dependency, id] <+ (compute g).order ∧ (compute g).depthOf dependency + 1 = count})
        depth)) ∧
    (∀ u v, g.Joins u v → ¬ g.Reaches v u →
      (compute g).depthOf v + 1 ≤ (compute g).depthOf u) ∧
    (g.isEmpty = false →
      g.Path (compute g).criticalPath ∧ (compute g).criticalPath.Nodup ∧
      (∃ first, (compute g).criticalPath.head? = some first ∧
        (compute g).depthOf first = (compute g).maxDepth ∧
        ∀ id, g.contains id = true → (compute g).depthOf id = (compute g).maxDepth → first ≤ id) ∧
      (compute g).criticalPath.IsChain
        (fun u v => (compute g).depthOf u = (compute g).depthOf v + 1) ∧
      (∃ last, (compute g).criticalPath.getLast? = some last ∧
        ((compute g).depthOf last = 0 ∨ ((compute g).depthOf last = 1 ∧
          ∀ dependency ∈ g.dependencyIds last, g.Reaches dependency last))) ∧
      (compute g).maxDepth ≤ (compute g).criticalPath.length ∧
      (compute g).criticalPath.length ≤ g.nodeCount) := by
  have hg := h.consistent
  refine ⟨fun id hid => ?_, fun u v => hg.succ_depthOf_le_of_not_reaches, fun hnodes => ?_⟩
  · have hfits := hg.fits_compute hid
    refine ⟨(compute g).depthOf id, ?_, ?_, fun hdependencies => ?_⟩
    · exact getElem?_depths_of_mem (hg.mem_depths_compute_iff.mpr hid)
    · exact hfits.zero_iff.trans hg.next_byId_eq_nil_iff
    · have hgreatest := hfits.isGreatest (mt hg.next_byId_eq_nil_iff.mp hdependencies)
      simp only [hg.mem_next_byId_iff_mem_dependencyIds] at hgreatest
      exact hgreatest
  · obtain ⟨id, hid⟩ := hg.exists_contains hnodes
    obtain ⟨first, hpath, hfirst, hmax, hleast⟩ :=
      exists_criticalPath_eq_chain (hg.mem_depths_compute_iff.mpr hid)
    have hcontains := hg.mem_depths_compute_iff.mp hfirst
    obtain ⟨last, hlast, hend, hlength⟩ := hg.last_of_chain hcontains
    have hchain := hg.path_chain hcontains
    have hnodup := nodup_chain (compute g) first
    rw [hpath]
    refine ⟨hchain, hnodup, ⟨first, head?_chain _ _, hmax, fun other hother => ?_⟩, ?_,
      ⟨last, hlast, hend⟩, hmax ▸ hlength, Consistent.length_le_nodeCount hchain hnodup⟩
    · exact hleast other (hg.mem_depths_compute_iff.mpr hother)
    · exact ((compute g).isChain_chain first).imp fun u v huv => (compute g).depthOf_eq_succ huv

/-- Three nodes on a cycle, a way that joins it, and a node that is joined to itself. -/
def whirl : Graph :=
  ofPairs ["a", "b", "c", "in", "loop"]
    [("a", "b"), ("b", "c"), ("c", "a"), ("in", "b"), ("in", "a"), ("loop", "loop")]

/-- From the cycle nothing leads back to where it is joined. -/
theorem not_reaches_whirl : ¬ whirl.Reaches "a" "in" := by
  have htarget : ∀ e ∈ whirl.edges, e.target ≠ "in" := by decide +kernel
  intro hreaches
  obtain ⟨u, -, e, he, -, hin⟩ := Relation.TransGen.tail'_iff.mp hreaches
  exact htarget e he hin

theorem depths_with_cycles_whirl :
    whirl.Built ∧ whirl.Joins "in" "a" ∧ ¬ whirl.Reaches "a" "in" ∧ whirl.isEmpty = false ∧
      (compute whirl).depths["loop"]? ≠ some 0 ∧
      (compute whirl).depthOf "a" + 1 ≤ (compute whirl).depthOf "in" ∧
      whirl.Path (compute whirl).criticalPath ∧ (compute whirl).criticalPath.Nodup ∧
      (compute whirl).maxDepth ≤ (compute whirl).criticalPath.length ∧
      (compute whirl).criticalPath.length ≤ 5 := by
  have hbuilt : whirl.Built := built_ofPairs _ _
  have hjoins : whirl.Joins "in" "a" := by
    unfold Joins
    decide +kernel
  have hnodes : whirl.isEmpty = false := by decide +kernel
  have hcount : whirl.nodeCount = 5 := by decide +kernel
  obtain ⟨hdepths, hraises, hcritical⟩ := Built.depths_with_cycles hbuilt
  have hloop : (compute whirl).depths["loop"]? ≠ some 0 := by
    obtain ⟨depth, hdepth, hzero, -⟩ := hdepths "loop" (by decide +kernel)
    intro hnone
    rw [hdepth, Option.some.injEq] at hnone
    exact absurd (hzero.mp hnone) (by decide +kernel)
  obtain ⟨hpath, hnodup, -, -, -, hmax, hlength⟩ := hcritical hnodes
  exact ⟨hbuilt, hjoins, not_reaches_whirl, hnodes, hloop, hraises _ _ hjoins not_reaches_whirl,
    hpath, hnodup, hmax, hcount ▸ hlength⟩

end Graph

end DepGraph

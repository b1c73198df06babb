import DepGraph.Proofs.Search.Course
import DepGraph.Proofs.Depth.CriticalPath

/-!
# Searches of any graph, and the order in which one leaves the nodes

What the nodes of a graph name as dependencies can be written over, and nobody checks that these are
nodes, that they are named once, or that edges go there. The searches for cycles and for depths end
all the same. In a graph that is built, the second of them leaves the nodes in an order that is
topological as far as there is one.

- `searches_exhaust`: both searches of any graph come to their end.
- `Consistent.order_perm`: every node is left, and nothing else.
- `Built.order_topological`: an edge that is on no cycle leads to a node that is left earlier.
-/

namespace DepGraph.Graph

open DepthFirst Depths
open scoped List

variable {g : Graph}

/-! ## Any graph -/

theorem next_byId_perm (g : Graph) (id : String) : g.byId.next id ~ g.dependencyIds id :=
  List.mergeSort_perm _ _

/-- The search for depths ends, and the nodes are completed as it leaves them. -/
theorem exists_exhausts_byId (g : Graph) : ∃ states, Exhausts g.byId states ∧
    (happened g.byId states).filterMap Event.left? = (compute g).order := by
  obtain ⟨states, hexhausts, hhappened⟩ := exists_exhausts g.byId
  refine ⟨states, hexhausts, ?_⟩
  rw [hhappened, order_compute, completionOrder]

/-- **Both searches of any graph end.** Each of them enters every node, enters nothing twice, and
goes over every entry of the lists of dependencies once, whatever the entries name and however
often. So no more cycles are reported than there are entries, and in each of them every member
names the next one as a dependency, and the last member the first. -/
theorem searches_exhaust (g : Graph) :
    (∃ states, Exhausts g.firstSeen states ∧
      (happened g.firstSeen states).filterMap Event.closed? = g.findCycles.map (·.members)) ∧
    (∃ states, Exhausts g.byId states ∧
      (happened g.byId states).filterMap Event.left? = (compute g).order) ∧
    (∀ id, g.firstSeen.next id = g.dependencyIds id ∧ g.byId.next id ~ g.dependencyIds id) ∧
    g.findCycles.length ≤ (g.nodeIds.flatMap g.dependencyIds).length ∧
    ∀ c ∈ g.findCycles, ClosedWalk (fun u v => v ∈ g.dependencyIds u) c.members := by
  refine ⟨?_, exists_exhausts_byId g, fun id => ⟨rfl, next_byId_perm g id⟩, ?_, fun c hc => ?_⟩
  · obtain ⟨states, hexhausts, hhappened⟩ := exists_exhausts g.firstSeen
    refine ⟨states, hexhausts, ?_⟩
    rw [hhappened, map_members_findCycles, DepthFirst.cycles]
  · rw [← List.length_map (f := Cycle.members), map_members_findCycles]
    exact length_cycles_le g.firstSeen
  · have hmembers : c.members ∈ DepthFirst.cycles g.firstSeen := by
      rw [← map_members_findCycles]
      exact List.mem_map_of_mem hc
    exact closedWalk_of_mem_cycles hmembers

/-- Two nodes without edges. What was written over their dependencies names each of them twice in
the other, and something that is no node. -/
def stray : Graph :=
  ((ofPairs ["a", "b"] []).modifyNode "a" fun n =>
    { n with dependencies := #["ghost", "b", "b"] }).modifyNode "b" fun n =>
      { n with dependencies := #["a", "ghost", "a"] }

theorem searches_exhaust_stray :
    stray.edges = #[] ∧ stray.contains "ghost" = false ∧
      stray.findCycles.map (·.members) = [["a", "b"], ["a", "b"]] ∧
      (∃ states, Exhausts stray.firstSeen states) ∧ (∃ states, Exhausts stray.byId states) ∧
      stray.findCycles.length ≤ 6 ∧
      ∀ c ∈ stray.findCycles, ClosedWalk (fun u v => v ∈ stray.dependencyIds u) c.members := by
  have hentries : (stray.nodeIds.flatMap stray.dependencyIds).length = 6 := by decide +kernel
  obtain ⟨⟨states, hstates, -⟩, ⟨states', hstates', -⟩, -, hcount, hclosed⟩ :=
    searches_exhaust stray
  refine ⟨rfl, by decide +kernel, by decide +kernel, ⟨states, hstates⟩, ⟨states', hstates'⟩,
    hentries ▸ hcount, hclosed⟩

/-! ## Graphs that are built -/

/-- Every node is left, and nothing else. -/
theorem Consistent.order_perm (h : g.Consistent) : (compute g).order ~ g.nodeIds := by
  have hsound := sound_compute g
  refine (List.perm_ext_iff_of_nodup hsound.nodup Std.TreeMap.nodup_keys).mpr fun id => ?_
  rw [← hsound.mem_iff, h.mem_depths_compute_iff]
  exact mem_nodeIds_iff.symm

/-- **The order of completion is topological away from cycles.** The search for depths ends, and
every node is completed once. An edge leads to a node that is completed earlier, unless that node
reaches the source of the edge; without cycles every edge does. -/
theorem Built.order_topological (h : g.Built) :
    (∃ states, Exhausts g.byId states ∧
      (happened g.byId states).filterMap Event.left? = (compute g).order) ∧
    (compute g).order.Nodup ∧ (compute g).order ~ g.nodeIds ∧
    (∀ u v, g.Joins u v → ¬ g.Reaches v u → [v, u] <+ (compute g).order) ∧
    (Acyclic g.Joins → ∀ u v, g.Joins u v → [v, u] <+ (compute g).order) := by
  have hg := h.consistent
  refine ⟨exists_exhausts_byId g, (sound_compute g).nodup, hg.order_perm, ?_, ?_⟩
  · intro u v hjoins hback
    exact (hg.before_or_reaches_of_joins hjoins).resolve_right hback
  · intro hacyclic u v hjoins
    exact hg.before_of_joins hacyclic hjoins

theorem order_topological_whirl :
    whirl.Built ∧ whirl.Joins "in" "a" ∧ ¬ whirl.Reaches "a" "in" ∧
      (compute whirl).order ~ ["a", "b", "c", "in", "loop"] ∧
      ["a", "in"] <+ (compute whirl).order ∧
      branches.Built ∧ Acyclic branches.Joins ∧ branches.Joins "app" "short" ∧
      ["short", "app"] <+ (compute branches).order := by
  have hbuilt : whirl.Built := built_ofPairs _ _
  have hids : whirl.nodeIds = ["a", "b", "c", "in", "loop"] := by decide +kernel
  have hjoins : whirl.Joins "in" "a" := by
    unfold Joins
    decide +kernel
  have hbuilt' : branches.Built := built_ofPairs _ _
  have hjoins' : branches.Joins "app" "short" := by
    unfold Joins
    decide +kernel
  obtain ⟨-, -, hperm, hbefore, -⟩ := Built.order_topological hbuilt
  obtain ⟨-, -, -, -, hbefore'⟩ := Built.order_topological hbuilt'
  exact ⟨hbuilt, hjoins, not_reaches_whirl, hids ▸ hperm, hbefore _ _ hjoins not_reaches_whirl,
    hbuilt', acyclic_branches, hjoins', hbefore' acyclic_branches _ _ hjoins'⟩

end DepGraph.Graph

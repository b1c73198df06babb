import Mathlib.Data.List.Perm.Subperm
import Mathlib.Data.List.Rotate
import DepGraph.Proofs.Graph.Built
import DepGraph.Proofs.Search.Closing

/-!
# What cycle detection finds

A depth-first search does not report every cycle of a graph: one that leads through nodes which the
search has left already is passed over. What it reports is enough all the same, because no cycle
gets around the edges that close the reported ones.

- `Built.cycles_complete`: every closed walk takes a closing edge of a reported cycle, so a graph
  without reported cycles has none, and the nodes that are not marked are on none among themselves.
- `Built.cycles_simple`: what is reported is a cycle of the graph, and no cycle is reported twice.
-/

namespace DepGraph.Graph

open DepthFirst

variable {g : Graph}

/-! ## Searches over the edges -/

theorem map_members_findCycles (g : Graph) :
    g.findCycles.map (·.members) = DepthFirst.cycles g.firstSeen := by
  unfold findCycles
  rw [List.map_map]
  exact List.map_id _

theorem mem_closings_iff {link : String × String} :
    some link ∈ (DepthFirst.cycles g.firstSeen).map closingEdge? ↔
      ∃ c ∈ g.findCycles, closingEdge? c.members = some link := by
  rw [← map_members_findCycles, List.map_map, List.mem_map]
  rfl

/-- A search along the edges closes no cycle exactly if there is none, whatever it starts from and
in whatever order it follows them. -/
theorem cycles_eq_nil_iff_of_next {a : Adjacency} (hnext : ∀ u v, v ∈ a.next u ↔ g.Joins u v) :
    DepthFirst.cycles a = [] ↔ Acyclic g.Joins := by
  rw [DepthFirst.cycles_eq_nil_iff]
  exact ⟨.mono fun u v => (hnext u v).mpr, .mono fun u v => (hnext u v).mp⟩

theorem Consistent.findCycles_eq_nil_iff (h : g.Consistent) :
    g.findCycles = [] ↔ Acyclic g.Joins := by
  rw [← cycles_eq_nil_iff_of_next fun _ _ => h.mem_next_firstSeen_iff, ← map_members_findCycles,
    List.map_eq_nil_iff]

theorem Consistent.hasCycle_eq_false_iff (h : g.Consistent) :
    g.hasCycle = false ↔ Acyclic g.Joins := by
  rw [← cycles_eq_nil_iff_of_next fun _ _ => h.mem_next_byEdges_iff]
  unfold hasCycle
  rw [Bool.not_eq_false', List.isEmpty_iff]

/-! ## Marking -/

/-- Is the node marked as cyclic? -/
def Marked (g : Graph) (id : String) : Prop :=
  ∃ node, g.node? id = some node ∧ node.cyclic = true

/-- Marking touches the nodes of the list, and only their mark. -/
theorem node?_foldl_mark (ids : List String) (g : Graph) (id : String) :
    (ids.foldl (fun g id => g.modifyNode id fun node => { node with cyclic := true }) g).node? id =
      (g.node? id).map fun node => if id ∈ ids then { node with cyclic := true } else node := by
  induction ids generalizing g with
  | nil => simp
  | cons first ids ih =>
    rw [List.foldl_cons, ih, node?_modifyNode]
    by_cases hfirst : first = id
    · subst hfirst
      rw [if_pos rfl, Option.map_map]
      refine congrArg (Option.map · _) (funext fun node => ?_)
      by_cases hmem : first ∈ ids <;> simp [hmem]
    · rw [if_neg hfirst]
      simp [Ne.symm hfirst]

theorem node?_markCyclic (g : Graph) (cycles : List Cycle) (id : String) :
    (g.markCyclic cycles).node? id = (g.node? id).map fun node =>
      if id ∈ cycles.flatMap (·.members) then { node with cyclic := true } else node :=
  node?_foldl_mark _ g id

theorem edges_markCyclic (g : Graph) (cycles : List Cycle) :
    (g.markCyclic cycles).edges = g.edges := by
  unfold markCyclic
  induction cycles.flatMap (·.members) generalizing g with
  | nil => rfl
  | cons first ids ih => rw [List.foldl_cons, ih, edges_modifyNode]

theorem marked_markCyclic {cycles : List Cycle} {c : Cycle} {id : String}
    (hcontains : g.contains id = true) (hc : c ∈ cycles) (hid : id ∈ c.members) :
    (g.markCyclic cycles).Marked id := by
  rw [contains_eq_isSome] at hcontains
  obtain ⟨entry, hentry⟩ := Option.isSome_iff_exists.mp hcontains
  have hmem : id ∈ cycles.flatMap (·.members) := List.mem_flatMap.mpr ⟨c, hc, hid⟩
  refine ⟨{ entry.node with cyclic := true }, ?_, rfl⟩
  rw [node?_markCyclic, node?, hentry, Option.map_some, Option.map_some, if_pos hmem]

/-! ## Nothing is missed -/

/-- **Cycle detection is complete.** Every closed walk takes the closing edge of a reported cycle,
from its last member to its first; without these edges the graph is acyclic. So cycles are reported
exactly if there are closed walks, which is what the question for cycles among the edges answers
too, and the nodes that are not members of reported cycles form no cycle among themselves. -/
theorem Built.cycles_complete (h : g.Built) :
    (∀ walk, ClosedWalk g.Joins walk →
      ∃ c ∈ g.findCycles, ∃ link ∈ Cycle.links walk, closingEdge? c.members = some link) ∧
    Acyclic (fun u v => g.Joins u v ∧
      ∀ c ∈ g.findCycles, closingEdge? c.members ≠ some (u, v)) ∧
    (g.findCycles ≠ [] ↔ ∃ walk, ClosedWalk g.Joins walk) ∧
    (g.findCycles ≠ [] ↔ g.hasCycle = true) ∧
    Acyclic (fun u v => (g.markCyclic g.findCycles).Joins u v ∧
      ¬ (g.markCyclic g.findCycles).Marked u ∧ ¬ (g.markCyclic g.findCycles).Marked v) := by
  have hg := h.consistent
  have hcut : ∀ walk, ClosedWalk g.Joins walk →
      ∃ c ∈ g.findCycles, ∃ link ∈ Cycle.links walk, closingEdge? c.members = some link := by
    intro walk hwalk
    obtain ⟨link, hlink, hclosing⟩ :=
      exists_closing_link (hwalk.mono fun u v => hg.mem_next_firstSeen_iff.mpr)
    obtain ⟨c, hc, hedge⟩ := mem_closings_iff.mp hclosing
    exact ⟨c, hc, link, hlink, hedge⟩
  refine ⟨hcut, ?_, ?_, ?_, ?_⟩
  · intro walk hwalk
    obtain ⟨c, hc, link, hlink, hedge⟩ := hcut walk (hwalk.mono fun u v huv => huv.1)
    exact (hwalk.2 link hlink).2 c hc hedge
  · rw [Ne, hg.findCycles_eq_nil_iff, Acyclic, not_forall_not]
  · rw [Ne, hg.findCycles_eq_nil_iff, ← hg.hasCycle_eq_false_iff, Bool.not_eq_false]
  · intro walk hwalk
    have hjoins : ∀ {u v}, (g.markCyclic g.findCycles).Joins u v → g.Joins u v := by
      intro u v huv
      unfold Joins at huv ⊢
      rwa [edges_markCyclic] at huv
    obtain ⟨c, hc, link, hlink, hedge⟩ := hcut walk (hwalk.mono fun u v huv => hjoins huv.1)
    obtain ⟨hlinked, hsource, -⟩ := hwalk.2 link hlink
    -- the closing edge leaves the last member, which is marked
    have hlast := (closingEdge?_eq_some_iff.mp hedge).1
    exact hsource (marked_markCyclic (hg.contains_of_joins (hjoins hlinked)).1 hc
      (List.mem_of_getLast? hlast))

/-- Two cycles that share the nodes "r" and "w". The search from "r" leaves "w" before it gets to
"v", so that the longer one is not reported. -/
def crossing : Graph :=
  ofPairs ["r", "v", "w"] [("r", "w"), ("w", "r"), ("r", "v"), ("v", "w")]

theorem built_crossing : crossing.Built :=
  built_ofPairs _ _

theorem cycles_complete_crossing :
    crossing.Built ∧ crossing.findCycles.map (·.members) = [["r", "w"]] ∧
      (∃ c ∈ crossing.findCycles, ∃ link ∈ Cycle.links ["r", "v", "w"],
        closingEdge? c.members = some link) ∧
      crossing.hasCycle = true := by
  have hmembers : crossing.findCycles.map (·.members) = [["r", "w"]] := by
    decide +kernel
  have hwalk : ClosedWalk crossing.Joins ["r", "v", "w"] := by
    unfold ClosedWalk Joins
    decide +kernel
  obtain ⟨hcut, -, -, hcycle, -⟩ := Built.cycles_complete built_crossing
  refine ⟨built_crossing, hmembers, hcut _ hwalk, hcycle.mp fun hnone => ?_⟩
  rw [hnone] at hmembers
  exact nomatch hmembers

/-! ## Nothing is made up, and nothing is said twice -/

/-- Two cycles of the same nodes have the same members in the same order, because the order in which
the search leaves the nodes is the same for both. -/
theorem members_eq_of_perm {c d : Cycle} (hc : c ∈ g.findCycles) (hd : d ∈ g.findCycles)
    (hperm : c.members.Perm d.members) : c.members = d.members := by
  have hmem : ∀ {c}, c ∈ g.findCycles → c.members ∈ DepthFirst.cycles g.firstSeen := by
    intro c hc
    rw [← map_members_findCycles]
    exact List.mem_map_of_mem hc
  obtain ⟨hleft, -⟩ := simple_of_mem_cycles (hmem hc)
  obtain ⟨hleft', -⟩ := simple_of_mem_cycles (hmem hd)
  -- backwards, both are parts of one order without repetitions, in which their members fix them
  have hperm' : c.members.reverse.Perm d.members.reverse :=
    (List.reverse_perm _).trans (hperm.trans (List.reverse_perm _).symm)
  have hnodup := nodup_completionOrder g.firstSeen
  exact List.reverse_injective ((hnodup.perm_iff_eq_of_sublist hleft hleft').mp hperm')

/-- **Cycle detection is sound, and reports no cycle twice.** The members of a reported cycle are
joined each to the next and the last to the first, and no node is a member twice. Two reported
cycles are closed by different edges, and neither is the other one from another node on. -/
theorem Built.cycles_simple (h : g.Built) :
    (∀ c ∈ g.findCycles, c.members ≠ [] ∧ c.members.Nodup ∧ c.members.length = c.length ∧
      c.members.IsChain g.Joins ∧
      ∃ first last, c.members.head? = some first ∧ c.members.getLast? = some last ∧
        g.Joins last first) ∧
    g.findCycles.Pairwise fun c d =>
      closingEdge? c.members ≠ closingEdge? d.members ∧ ¬ c.members.IsRotated d.members := by
  have hg := h.consistent
  constructor
  · intro c hc
    obtain ⟨members, hmembers, rfl⟩ := List.mem_map.mp hc
    obtain ⟨hleft, hlinked, last, first, hclosing, hnext⟩ := simple_of_mem_cycles hmembers
    obtain ⟨hlast, hfirst⟩ := closingEdge?_eq_some_iff.mp hclosing
    refine ⟨?_, ?_, rfl, ?_, first, last, hfirst, hlast, hg.mem_next_firstSeen_iff.mp hnext⟩
    · rintro hnil
      rw [show members = [] from hnil] at hlast
      exact nomatch hlast
    · exact List.nodup_reverse.mp (hleft.nodup (nodup_completionOrder _))
    · exact hlinked.imp fun u v huv => hg.mem_next_firstSeen_iff.mp huv
  · have hclosings := nodup_closings (a := g.firstSeen) hg.nodup_dependencyIds
    rw [← map_members_findCycles, List.map_map, List.nodup_iff_pairwise_ne, List.pairwise_map]
      at hclosings
    refine hclosings.imp_of_mem fun {c d} hc hd hne => ⟨hne, fun hrotated => hne ?_⟩
    exact congrArg closingEdge? (members_eq_of_perm hc hd hrotated.perm)

/-- Three nodes, each joined to both others, which have five cycles. -/
def complete : Graph :=
  ofPairs ["a", "b", "c"] [("a", "b"), ("a", "c"), ("b", "a"), ("b", "c"), ("c", "a"), ("c", "b")]

theorem cycles_simple_complete :
    complete.Built ∧
      complete.findCycles.map (·.members) = [["a", "b"], ["a", "b", "c"], ["b", "c"]] ∧
      (∀ c ∈ complete.findCycles, c.members.Nodup) ∧
      complete.findCycles.Pairwise fun c d => ¬ c.members.IsRotated d.members := by
  have hbuilt : complete.Built := built_ofPairs _ _
  obtain ⟨hsimple, hpairwise⟩ := Built.cycles_simple hbuilt
  refine ⟨hbuilt, ?_, fun c hc => (hsimple c hc).2.1, hpairwise.imp fun hcd => hcd.2⟩
  decide +kernel

end DepGraph.Graph

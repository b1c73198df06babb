import DepGraph.Proofs.Cycle.Detection
import DepGraph.Proofs.Graph.Annotated
import DepGraph.Proofs.Graph.MergeLaws

/-!
# What the advice on a cycle is worth

The search for cycles goes over the neighbours that the nodes name, where edges of several kinds
from one node to another are one. The advice on a cycle looks at the single edges: it asks for the
removal of the first dependency in the cycle that an optional edge records. Whether that breaks the
cycle depends on what else joins the two nodes.

- `Graph.without`: a graph without some of its edges.
- `Keyed.optionalLink?_eq_some_iff`: the link that is named is the first that an optional edge
  joins.
- `Graph.joins_withoutOptional_iff`: removing the optional edges of a link leaves what joins its
  ends otherwise.
- `Annotated.advice_on_cycles`: when the advice is given, and what heeding it does to the cycle.
- `closedWalk_twofold`: a cycle that heeding the advice does not break.
-/

namespace DepGraph

namespace Cycle

/-- The advice to remove an optional dependency. -/
def removal (source target : String) : String :=
  s!"Remove the optional dependency from {source} to {target}"

/-- The advice that is given on every cycle. -/
def generalAdvice : List String :=
  ["Use dependency injection to break the cycle",
    "Extract a shared interface to remove the direct edge"]

theorem suggestionsFor_eq (g : Graph) (members : List String) :
    suggestionsFor g members =
      ((optionalLink? g members).map fun link => removal link.1 link.2).toList ++ generalAdvice :=
  rfl

/-- The first letters tell the advice on a link from the other. -/
theorem removal_not_mem_generalAdvice (source target : String) :
    removal source target ∉ generalAdvice := by
  have hhead : ∀ advice ∈ generalAdvice, advice.toList.head? ≠ some 'R' := by decide
  have htext : removal source target =
      "Remove the optional dependency from " ++ source ++ " to " ++ target := rfl
  refine fun hmem => hhead _ hmem ?_
  rw [htext, String.append_assoc, String.append_assoc, String.toList_append, List.head?_append]
  rfl

end Cycle

namespace Graph

open DepGraph.Cycle

variable {g : Graph} {members : List String} {link : String × String} {source target : String}

/-! ## A graph without some of its edges -/

/-- The graph with the same nodes and with those of the edges that do not have the property. -/
def without (g : Graph) (p : Edge → Bool) : Graph :=
  (g.edges.toList.filter (!p ·)).foldl addEdge
    (({ createdAt := g.createdAt } : Graph).withNodesOf g)

/-- What is left of the edges is left in its order. -/
theorem toList_edges_without (h : g.Annotated) (p : Edge → Bool) :
    (g.without p).edges.toList = g.edges.toList.filter (!p ·) := by
  unfold without
  rw [toList_edges_foldl_addEdge (consistent_withNodesOf (consistent_empty g.createdAt) g),
    edges_withNodesOf, edgeKeys_withNodesOf]
  · simp [edgeKeys]
  · intro e he
    obtain ⟨hsource, htarget⟩ := h.anchored e (List.mem_of_mem_filter he)
    simp only [contains_withNodesOf _ h.identified, hsource, htarget, Bool.or_true, and_self]
  · exact (List.filter_sublist.map Edge.key).nodup h.keyed.nodup_keys

/-! ## Links that optional edges join -/

/-- Does an edge that is optional, or one that is not, go from the first node to the second? -/
def JoinsWith (g : Graph) (optional : Bool) (source target : String) : Prop :=
  ∃ e ∈ g.edges, e.source = source ∧ e.target = target ∧ e.optional = optional

theorem joins_iff_joinsWith :
    g.Joins source target ↔ g.JoinsWith true source target ∨ g.JoinsWith false source target := by
  constructor
  · rintro ⟨e, he, hsource, htarget⟩
    cases hoptional : e.optional
    · exact .inr ⟨e, he, hsource, htarget, hoptional⟩
    · exact .inl ⟨e, he, hsource, htarget, hoptional⟩
  · rintro (⟨e, he, hsource, htarget, -⟩ | ⟨e, he, hsource, htarget, -⟩) <;>
      exact ⟨e, he, hsource, htarget⟩

/-- Is the link the first of the cycle that an optional edge joins? -/
def FirstOptional (g : Graph) (members : List String) (link : String × String) : Prop :=
  ∃ earlier later, links members = earlier ++ link :: later ∧
    (∀ other ∈ earlier, ¬ g.JoinsWith true other.1 other.2) ∧ g.JoinsWith true link.1 link.2

theorem Keyed.any_optional_iff (h : g.Keyed) :
    ((g.edgesFrom source).any fun e => e.target == target && e.optional) = true ↔
      g.JoinsWith true source target := by
  rw [← Array.any_toList, h.toList_edgesFrom, edgesOut, List.any_filter, List.any_eq_true]
  simp [JoinsWith]

theorem Keyed.optionalLink?_eq_some_iff (h : g.Keyed) :
    optionalLink? g members = some link ↔ g.FirstOptional members link := by
  unfold optionalLink?
  simp only [List.find?_eq_some_iff_append, h.any_optional_iff, Bool.not_eq_true',
    ← Bool.not_eq_true]
  constructor
  · rintro ⟨hlink, earlier, later, hlinks, hearlier⟩
    exact ⟨earlier, later, hlinks, hearlier, hlink⟩
  · rintro ⟨earlier, later, hlinks, hearlier, hlink⟩
    exact ⟨hlink, earlier, later, hlinks, hearlier⟩

theorem Keyed.isSome_optionalLink?_iff (h : g.Keyed) :
    (optionalLink? g members).isSome ↔ ∃ link ∈ links members, g.JoinsWith true link.1 link.2 := by
  unfold optionalLink?
  simp only [List.find?_isSome, h.any_optional_iff]

/-- The removal of a dependency is asked for exactly if there is an optional one. -/
theorem Keyed.exists_removal_mem_iff (h : g.Keyed) :
    (∃ source target, removal source target ∈ suggestionsFor g members) ↔
      ∃ link ∈ links members, g.JoinsWith true link.1 link.2 := by
  rw [← h.isSome_optionalLink?_iff, suggestionsFor_eq]
  constructor
  · rintro ⟨source, target, hmem⟩
    have hspecial := (List.mem_append.mp hmem).resolve_right (removal_not_mem_generalAdvice _ _)
    rw [Option.mem_toList, Option.map_eq_some_iff] at hspecial
    obtain ⟨link, hlink, -⟩ := hspecial
    exact Option.isSome_of_mem hlink
  · intro hsome
    obtain ⟨link, hlink⟩ := Option.isSome_iff_exists.mp hsome
    exact ⟨link.1, link.2, by rw [hlink]; exact List.mem_cons_self⟩

/-! ## Heeding the advice -/

/-- Is the edge an optional one from the first node to the second? -/
def isOptionalLink (source target : String) (e : Edge) : Bool :=
  e.source == source && e.target == target && e.optional

/-- The graph without the optional edges from the first node to the second. -/
def withoutOptional (g : Graph) (source target : String) : Graph :=
  g.without (isOptionalLink source target)

/-- What is not removed stays: all other links, and the edges of this one that are not optional. -/
theorem joins_withoutOptional_iff (h : g.Annotated) {u v : String} :
    (g.withoutOptional source target).Joins u v ↔
      if u = source ∧ v = target then g.JoinsWith false source target else g.Joins u v := by
  have hleft : (g.withoutOptional source target).Joins u v ↔
      ∃ e ∈ g.edges, isOptionalLink source target e = false ∧ e.source = u ∧ e.target = v := by
    simp only [Joins, ← Array.mem_toList_iff, withoutOptional, toList_edges_without h,
      List.mem_filter, Bool.not_eq_true', and_assoc]
  rw [hleft]
  split
  · next hlink =>
    obtain ⟨rfl, rfl⟩ := hlink
    refine exists_congr fun e => and_congr_right fun _ => ?_
    simp only [isOptionalLink, Bool.and_eq_false_iff, beq_eq_false_iff_ne]
    tauto
  · next hlink =>
    refine exists_congr fun e => and_congr_right fun _ => and_iff_right_of_imp ?_
    rintro ⟨rfl, rfl⟩
    simp only [isOptionalLink, Bool.and_eq_false_iff, beq_eq_false_iff_ne]
    tauto

/-- A walk over a link is still closed if it was and if the ends of the link are joined
otherwise. -/
theorem closedWalk_withoutOptional_iff (h : g.Annotated)
    (hlink : (source, target) ∈ links members) :
    ClosedWalk (g.withoutOptional source target).Joins members ↔
      ClosedWalk g.Joins members ∧ g.JoinsWith false source target := by
  simp only [ClosedWalk, joins_withoutOptional_iff h]
  constructor
  · rintro ⟨hne, hlinks⟩
    have hfirm : g.JoinsWith false source target := by simpa using hlinks _ hlink
    refine ⟨⟨hne, fun other hother => ?_⟩, hfirm⟩
    have hjoins := hlinks other hother
    split at hjoins
    · next heq =>
      obtain ⟨rfl, rfl⟩ := heq
      exact joins_iff_joinsWith.mpr (.inr hfirm)
    · exact hjoins
  · rintro ⟨⟨hne, hlinks⟩, hfirm⟩
    refine ⟨hne, fun other hother => ?_⟩
    split
    · exact hfirm
    · exact hlinks other hother

/-- The members of a reported cycle depend each on the next, and the last on the first. -/
theorem Consistent.closedWalk_of_mem_findCycles (h : g.Consistent) {c : Cycle}
    (hc : c ∈ g.findCycles) : ClosedWalk g.Joins c.members := by
  obtain ⟨members, hmembers, rfl⟩ := List.mem_map.mp hc
  exact (DepthFirst.closedWalk_of_mem_cycles hmembers).mono fun _ _ => h.mem_next_firstSeen_iff.mp

/-- **The advice on a cycle names its first optional dependency.** It is given exactly if there is
one. Heeding it leaves the members a closed walk if they were one and if an edge that is not
optional joins the same two nodes; otherwise it breaks the cycle. Where nodes come without
neighbours, the members of a reported cycle are a closed walk. -/
theorem Annotated.advice_on_cycles (h : g.Annotated) {c : Cycle} (hc : c ∈ g.findCycles) :
    ((∃ source target, removal source target ∈ c.suggestions) ↔
      ∃ link ∈ links c.members, g.JoinsWith true link.1 link.2) ∧
    (∀ source target, g.FirstOptional c.members (source, target) →
      c.suggestions = removal source target :: generalAdvice ∧
      (ClosedWalk (g.withoutOptional source target).Joins c.members ↔
        ClosedWalk g.Joins c.members ∧ g.JoinsWith false source target)) ∧
    (g.Built → ClosedWalk g.Joins c.members) := by
  refine ⟨?_, fun source target hfirst => ?_,
    fun hg => hg.consistent.closedWalk_of_mem_findCycles hc⟩
  · obtain ⟨members, -, rfl⟩ := List.mem_map.mp hc
    exact h.keyed.exists_removal_mem_iff
  · have hlink : (source, target) ∈ links c.members := by
      obtain ⟨earlier, later, hlinks, -⟩ := hfirst
      exact hlinks ▸ List.mem_append_right earlier List.mem_cons_self
    refine ⟨?_, closedWalk_withoutOptional_iff h hlink⟩
    obtain ⟨members, -, rfl⟩ := List.mem_map.mp hc
    have hoptional : optionalLink? g members = some (source, target) :=
      h.keyed.optionalLink?_eq_some_iff.mpr hfirst
    show suggestionsFor g members = _
    rw [suggestionsFor_eq, hoptional]
    rfl

/-- A cycle of three links, of which the first is required and the other two are optional, the
second in two kinds. -/
def leaning : Graph :=
  (((ofPairs ["a", "b", "c"] [("a", "b")]).addEdge
    { source := "b", target := "c", kind := .imports, optional := true }).addEdge
    { source := "b", target := "c", kind := .uses, optional := true }).addEdge
    { source := "c", target := "a", kind := .imports, optional := true }

theorem built_leaning : leaning.Built :=
  .addEdge _ (.addEdge _ (.addEdge _ (built_ofPairs _ _)))

theorem advice_on_cycles_leaning :
    leaning.Annotated ∧ classify leaning ["a", "b", "c"] ∈ leaning.findCycles ∧
      (classify leaning ["a", "b", "c"]).suggestions = removal "b" "c" :: generalAdvice ∧
      ClosedWalk leaning.Joins ["a", "b", "c"] ∧
      ¬ ClosedWalk (leaning.withoutOptional "b" "c").Joins ["a", "b", "c"] := by
  have hmem : classify leaning ["a", "b", "c"] ∈ leaning.findCycles :=
    List.mem_map_of_mem (by decide +kernel)
  obtain ⟨-, hfirst, hwalk⟩ := Annotated.advice_on_cycles built_leaning.annotated hmem
  obtain ⟨hsuggestions, hcut⟩ := hfirst "b" "c" ⟨[("a", "b")], [("c", "a")], by
    unfold JoinsWith; decide +kernel⟩
  refine ⟨built_leaning.annotated, hmem, hsuggestions, hwalk built_leaning, fun hclosed => ?_⟩
  exact absurd (hcut.mp hclosed).2 (by unfold JoinsWith; decide +kernel)

/-- Two nodes that depend on each other. The first does so in two ways, of which one is optional. -/
def twofold : Graph :=
  (((ofPairs ["a", "b"] []).addEdge
    { source := "a", target := "b", kind := .imports, optional := true }).addEdge
    { source := "a", target := "b", kind := .requires }).addEdge
    { source := "b", target := "a", kind := .imports }

theorem built_twofold : twofold.Built :=
  .addEdge _ (.addEdge _ (.addEdge _ (built_ofPairs _ _)))

/-- Heeding the advice does not always break the cycle. -/
theorem closedWalk_twofold :
    twofold.Built ∧ ∃ c ∈ twofold.findCycles, c.members = ["a", "b"] ∧
      c.suggestions = removal "a" "b" :: generalAdvice ∧
      twofold.FirstOptional c.members ("a", "b") ∧
      ClosedWalk (twofold.withoutOptional "a" "b").Joins c.members := by
  refine ⟨built_twofold, classify twofold ["a", "b"], List.mem_map_of_mem (by decide +kernel), rfl,
    by decide +kernel, ⟨[], [("b", "a")], ?_⟩, ?_⟩
  · unfold JoinsWith
    decide +kernel
  · unfold ClosedWalk Joins
    decide +kernel

end Graph

end DepGraph

import DepGraph.Proofs.Analysis.Phases
import DepGraph.Proofs.Build.Meaning
import DepGraph.Proofs.Depth.Determined

/-!
# What an analysis returns fits together

The phases of an analysis write into the nodes one after another. What an earlier phase found stays
true of the graph that is returned, since no phase looks at what a later one writes.

- `rewritten_markCritical`, `rewritten_markCyclic`: what the first phases write.
- `Rewritten.findCycles_eq`: cyclic marks and depths are not seen by the search for cycles.
- `Analysis.Coherent`: the returned graph is the built one with the findings in its nodes, and every
  phase finds in it what it found before.
- `Analyzer.coherent_of_returns_analyze`: so it is for every analysis.
-/

namespace DepGraph

open Run

namespace Node

/-- The node without the findings of an analysis. -/
def withoutFindings (n : Node) : Node :=
  { n with critical := false, cyclic := false, depth := 0 }

/-- The node, critical if it is listed by its identifier or by its name. -/
def withCritical (names : List String) (n : Node) : Node :=
  { n with critical := names.contains n.id || names.contains n.name }

/-- The node of an identifier, cyclic if one of the cycles goes through it. -/
def withCyclic (cycles : List Cycle) (id : String) (n : Node) : Node :=
  { n with cyclic := cycles.any (·.contains id) }

theorem keepsLinks_withCritical (names : List String) : KeepsLinks (withCritical names) :=
  ⟨fun _ => rfl, fun _ => rfl, fun _ => rfl⟩

theorem keepsLinks_withCyclic (cycles : List Cycle) (id : String) :
    KeepsLinks (withCyclic cycles id) :=
  ⟨fun _ => rfl, fun _ => rfl, fun _ => rfl⟩

end Node

namespace Graph

variable {g g' : Graph}

/-! ## What the first phases write -/

theorem rewritten_markCritical (h : g.Fresh) (names : List String) :
    Rewritten (fun _ => Node.withCritical names) g (g.markCritical names) := by
  have hmarks := rewritten_foldl_mark (fun _ n => { n with critical := true }) (fun _ _ => rfl)
    ((g.nodes.filter fun n => names.contains n.id || names.contains n.name).map (·.id)) g
  rw [List.foldl_map] at hmarks
  refine hmarks.congr fun id node hnode => ?_
  obtain rfl : node.id = id := (h.reflects_node hnode).1
  have hlisted : node.id ∈ (g.nodes.filter fun n =>
      names.contains n.id || names.contains n.name).map (·.id) ↔
      (names.contains node.id || names.contains node.name) = true := by
    rw [List.mem_map]
    constructor
    · rintro ⟨other, hother, hid⟩
      obtain ⟨hmem, hnamed⟩ := List.mem_filter.mp hother
      -- there is one node of the identifier
      have hsame := (h.mem_nodes_iff.mp hmem).symm.trans (hid ▸ hnode)
      exact Option.some.inj hsame ▸ hnamed
    · exact fun hnamed => ⟨node, List.mem_filter.mpr ⟨h.mem_nodes_iff.mpr hnode, hnamed⟩, rfl⟩
  unfold Node.withCritical
  by_cases hnamed : (names.contains node.id || names.contains node.name) = true
  · rw [if_pos (hlisted.mpr hnamed), hnamed]
  · rw [if_neg (mt hlisted.mp hnamed), eq_false_of_ne_true hnamed, ← (h.unmarked hnode).1]

theorem rewritten_markCyclic (hunmarked : ∀ id node, g.node? id = some node → node.cyclic = false)
    (cycles : List Cycle) :
    Rewritten (Node.withCyclic cycles) g (g.markCyclic cycles) := by
  have hmarks := rewritten_foldl_mark (fun _ n => { n with cyclic := true }) (fun _ _ => rfl)
    (cycles.flatMap (·.members)) g
  refine hmarks.congr fun id node hnode => ?_
  have hmember : id ∈ cycles.flatMap (·.members) ↔ cycles.any (·.contains id) = true := by
    simp [Cycle.contains]
  unfold Node.withCyclic
  by_cases hany : cycles.any (·.contains id) = true
  · rw [if_pos (hmember.mpr hany), hany]
  · rw [if_neg (mt hmember.mp hany), eq_false_of_ne_true hany, ← hunmarked id node hnode]

/-! ## What no phase looks at -/

/-- The search for cycles and their classification look at links and at critical marks. -/
theorem Rewritten.findCycles_eq {change : String → Node → Node} (h : Rewritten change g g')
    (hlinks : ∀ id, Node.KeepsLinks (change id))
    (hcritical : ∀ id n, (change id n).critical = n.critical) :
    g'.findCycles = g.findCycles := by
  have hseverity : ∀ members, Cycle.severityOf g' members = Cycle.severityOf g members := by
    intro members
    have hany : ∀ id, (g'.node? id).any (·.critical) = (g.node? id).any (·.critical) := by
      intro id
      rw [h.node?_eq]
      cases g.node? id with
      | none => rfl
      | some node => exact hcritical id node
    simp only [Cycle.severityOf, hany]
  have hsuggestions : ∀ members,
      Cycle.suggestionsFor g' members = Cycle.suggestionsFor g members := by
    intro members
    simp only [Cycle.suggestionsFor, Cycle.optionalLink?, h.edgesFrom_eq]
  unfold findCycles
  rw [h.firstSeen_eq hlinks]
  refine List.map_congr_left fun members _ => ?_
  rw [Cycle.classify, hseverity, hsuggestions, Cycle.classify]

end Graph

/-! ## The whole analysis -/

/-- What an analysis found fits the graph that was built, and is found again in the graph that it
returns. -/
structure Analysis.Coherent (a : Analyzer) (b : Build) (found : Analysis) : Prop where
  nodeIds_eq : found.graph.nodeIds = b.graph.nodeIds
  place?_eq : ∀ id, found.graph.place? id = b.graph.place? id
  /-- Nodes differ in the findings alone. -/
  node?_eq : ∀ id, (found.graph.node? id).map Node.withoutFindings =
    (b.graph.node? id).map Node.withoutFindings
  edges_eq : found.graph.edges = b.graph.edges
  edgesFrom_eq : ∀ id, found.graph.edgesFrom id = b.graph.edgesFrom id
  critical_iff : ∀ id node, found.graph.node? id = some node → (node.critical = true ↔
    node.id ∈ a.configuration.criticalNodes ∨ node.name ∈ a.configuration.criticalNodes)
  cyclic_iff : ∀ id node, found.graph.node? id = some node →
    (node.cyclic = true ↔ ∃ c ∈ found.cycles, id ∈ c.members)
  depth_eq : ∀ id node, found.graph.node? id = some node →
    node.depth = (Depths.compute found.graph).depthOf id
  findCycles_eq : found.graph.findCycles = found.cycles
  criticalPath_eq : (Depths.compute found.graph).criticalPath = found.criticalPath
  suggestOptimizations_eq : a.configuration.suggestOptimizations = true →
    found.graph.suggestOptimizations found.cycles a.similarityInUse = found.optimizations
  summarize_eq : found.graph.summarize = found.statistics
  statistics_eq : found.graph.statistics = some found.statistics

section Coherent

variable {a : Analyzer} {b : Build} {found : Analysis} (h : found.Coherent a b)

include h

theorem Analysis.Coherent.edgeKeys_eq : found.graph.edgeKeys = b.graph.edgeKeys := by
  unfold Graph.edgeKeys
  rw [h.edges_eq]

/-- A built node is returned with its findings. -/
theorem Analysis.Coherent.exists_node? {id : String} {node : Node}
    (hnode : b.graph.node? id = some node) :
    ∃ node', found.graph.node? id = some node' ∧
      node'.withoutFindings = node.withoutFindings := by
  have hsame := h.node?_eq id
  rw [hnode] at hsame
  exact Option.map_eq_some_iff.mp hsame

/-- A returned node was built. -/
theorem Analysis.Coherent.exists_built_node? {id : String} {node : Node}
    (hnode : found.graph.node? id = some node) :
    ∃ built, b.graph.node? id = some built ∧
      built.withoutFindings = node.withoutFindings := by
  have hsame := h.node?_eq id
  rw [hnode] at hsame
  exact Option.map_eq_some_iff.mp hsame.symm

end Coherent

namespace Analyzer

open DepGraph.Graph

section Fresh

variable {g : Graph} (h : g.Fresh) (a : Analyzer)

include h

theorem rewritten_withCritical :
    Rewritten (fun _ => Node.withCritical a.configuration.criticalNodes) g (a.withCritical g) :=
  rewritten_markCritical h a.configuration.criticalNodes

theorem rewritten_withCyclic :
    Rewritten (Node.withCyclic (a.cyclesOf g)) (a.withCritical g) (a.withCyclic g) := by
  refine rewritten_markCyclic (fun id node hnode => ?_) (a.cyclesOf g)
  rw [(rewritten_withCritical h a).node?_eq] at hnode
  obtain ⟨old, hold, rfl⟩ := Option.map_eq_some_iff.mp hnode
  exact (h.unmarked hold).2

theorem rewritten_withDepths :
    Rewritten (Node.withDepth (a.depthsOf g)) (a.withCyclic g) (a.withDepths g) := by
  have hcritical := (rewritten_withCritical h a).consistent
    (fun _ => Node.keepsLinks_withCritical _) h.toConsistent
  exact rewritten_apply
    ((rewritten_withCyclic h a).consistent (Node.keepsLinks_withCyclic _) hcritical)

end Fresh

/-- What is worked out of a fresh graph fits together. -/
theorem coherent_conclude (a : Analyzer) {b : Build} (h : b.graph.Fresh)
    (looked ended : Timestamp) : (a.conclude b looked ended).Coherent a b := by
  -- what is written last, what is written after the search for cycles, and all that is written
  have hlast : Rewritten _ (a.withCyclic b.graph) (a.conclude b looked ended).graph :=
    (rewritten_withDepths h a).of_entries rfl rfl
  have hlate : Rewritten _ (a.withCritical b.graph) (a.conclude b looked ended).graph :=
    (rewritten_withCyclic h a).trans hlast
  have hall : Rewritten _ b.graph (a.conclude b looked ended).graph :=
    (rewritten_withCritical h a).trans hlate
  have hdepths : Depths.compute (a.conclude b looked ended).graph = a.depthsOf b.graph :=
    hlast.compute_eq (Node.keepsLinks_withDepth _)
  have hnode : ∀ id node, (a.conclude b looked ended).graph.node? id = some node →
      ∃ old, Node.withDepth (a.depthsOf b.graph) id (Node.withCyclic (a.cyclesOf b.graph) id
        (Node.withCritical a.configuration.criticalNodes old)) = node := by
    intro id node hnode
    rw [hall.node?_eq] at hnode
    obtain ⟨old, -, heq⟩ := Option.map_eq_some_iff.mp hnode
    exact ⟨old, heq⟩
  refine
    { nodeIds_eq := hall.nodeIds_eq
      place?_eq := hall.place?_eq
      node?_eq := fun id => ?_
      edges_eq := hall.edges_eq
      edgesFrom_eq := hall.edgesFrom_eq
      critical_iff := ?_
      cyclic_iff := ?_
      depth_eq := ?_
      findCycles_eq := hlate.findCycles_eq (fun id => ?_) fun _ _ => rfl
      criticalPath_eq := congrArg Depths.criticalPath hdepths
      suggestOptimizations_eq := fun hsuggest => (if_pos hsuggest).symm
      summarize_eq := rfl
      statistics_eq := rfl }
  · rw [hall.node?_eq, Option.map_map]
    rfl
  · intro id node hid
    obtain ⟨old, rfl⟩ := hnode id node hid
    show (_ || _) = true ↔ _
    rw [Bool.or_eq_true, List.contains_iff_mem, List.contains_iff_mem]
    rfl
  · intro id node hid
    obtain ⟨old, rfl⟩ := hnode id node hid
    show (a.cyclesOf b.graph).any (·.contains id) = true ↔ _
    simp only [List.any_eq_true, Cycle.contains, List.contains_iff_mem]
    rfl
  · intro id node hid
    obtain ⟨old, rfl⟩ := hnode id node hid
    show (a.depthsOf b.graph).depthOf id = _
    rw [hdepths]
  · exact ⟨fun _ => rfl, fun _ => rfl, fun _ => rfl⟩

/-- **What an analysis returns is coherent.** Whatever is analyzed, and whatever happens around it
meanwhile, the returned graph is the one that was built with the findings in its nodes, and working
through it once more finds the same again. -/
theorem coherent_of_returns_analyze {σ : Type} {a : Analyzer} {s : Surroundings σ}
    {session session' : Session σ} {subject : Subject} {found : Analysis}
    (h : Returns (a.analyze s subject) session found session') :
    ∃ b between, Returns (a.build s subject) session b between ∧ found.Coherent a b := by
  obtain ⟨-, b, between, hbuild, hfinish⟩ := returns_analyze_iff.mp h
  obtain ⟨looked, ended, rfl⟩ := eq_conclude_of_returns_finish hfinish
  exact ⟨b, between, hbuild, coherent_conclude a (fresh_of_returns_build hbuild) looked ended⟩

/-- An analysis to which one file is critical. -/
def attentive : Analyzer where
  configuration := { criticalNodes := ["b.js"] }

theorem coherent_of_returns_analyze_mutualImports :
    ∃ found session', Returns (attentive.analyze (.still Build.mutualImports) (.directory "/"))
        ⟨(), #[]⟩ found session' ∧
      (found.cycles.map (·.members) == [["a.js", "b.js"]] &&
        found.criticalPath == ["a.js", "b.js"]) = true ∧
      ∃ b between, Returns (attentive.build (.still Build.mutualImports) (.directory "/"))
        ⟨(), #[]⟩ b between ∧ found.Coherent attentive b := by
  obtain ⟨found, session', h, hfound⟩ := exists_returns_of_any
    (attentive.analyze (.still Build.mutualImports) (.directory "/")) ⟨(), #[]⟩
    (fun found => found.cycles.map (·.members) == [["a.js", "b.js"]] &&
      found.criticalPath == ["a.js", "b.js"]) (by decide +kernel)
  exact ⟨found, session', h, hfound, coherent_of_returns_analyze h⟩

end Analyzer

end DepGraph

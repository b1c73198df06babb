import DepGraph.Analysis.Analyzer
import DepGraph.Proofs.Build.Directory

/-!
# The phases of an analysis

Every analysis checks the configuration, builds a graph and then works through it. What it works out
depends on the graph that was built and on two looks at the clock, and on nothing else.

- `Subject`: what an analysis is about; `Analyzer.analyze` and `Analyzer.build` are the analysis of
  it and the phase in which its graph is built.
- `returns_analyze_iff`: an analysis returns if its phases do, one after another.
- `eq_of_returns_build_manifest`, `eq_of_returns_build_project`: what is built.
- `Analyzer.withCritical`, `Analyzer.withCyclic`, `Analyzer.withDepths`: the graph after the phases
  that write into its nodes.
- `Analyzer.conclude`: what is worked out of a build, and `eq_conclude_of_returns_finish` with it.
- `fresh_of_returns_build`: what is worked through is always a fresh graph.
-/

namespace DepGraph

open DepGraph.Graph Run

/-- What an analysis is about. -/
inductive Subject where
  | manifest (m : Manifest)
  | directory (root : WrittenPath)
  | project (root : WrittenPath) (m : Manifest)

namespace Analyzer

variable {σ : Type} {s : Surroundings σ} {session session' : Session σ} {a : Analyzer}

/-- The analysis of a subject. -/
def analyze (a : Analyzer) (s : Surroundings σ) : Subject → Run σ Analysis
  | .manifest m => a.analyzeManifest s m
  | .directory root => a.analyzeDirectory s root
  | .project root m => a.analyzeProject s root m

/-- What comes before the graph is worked through: the phase in which it is built. -/
def build (a : Analyzer) (s : Surroundings σ) : Subject → Run σ Build
  | .manifest m => Run.phase s .build do
    return { graph := Graph.ofManifest a.configuration m (← Run.now s) }
  | .directory root => Run.phase s .build <|
    Build.ofDirectory a.configuration a.tools .inTurn s root
  | .project root m => Run.phase s .build do
    let packages := Graph.ofManifest a.configuration m (← Run.now s)
    let build ← Build.ofDirectory a.configuration (a.projectTools m) .inTurn s root
    return { build with graph := packages.merge build.graph }

theorem returns_bind_checkConfiguration_iff {α : Type} {f : Unit → Run σ α} {x : α} :
    Returns (a.checkConfiguration >>= f) session x session' ↔
      a.configuration.check = .ok () ∧ Returns (f ()) session x session' := by
  simp only [returns_bind_iff, checkConfiguration, returns_ofExcept_iff]
  constructor
  · rintro ⟨_, _, ⟨hcheck, rfl⟩, hf⟩
    exact ⟨hcheck, hf⟩
  · rintro ⟨hcheck, hf⟩
    exact ⟨(), session, ⟨hcheck, rfl⟩, hf⟩

/-- Whatever the subject, what is built is worked through. -/
theorem returns_analyze_iff {subject : Subject} {found : Analysis} :
    Returns (a.analyze s subject) session found session' ↔
      a.configuration.check = .ok () ∧ ∃ b between,
        Returns (a.build s subject) session b between ∧
          Returns (a.finish s b) between found session' := by
  cases subject with
  | manifest m =>
    refine returns_bind_checkConfiguration_iff.trans (and_congr_right fun _ => ?_)
    unfold build
    simp only [returns_bind_iff, returns_phase_iff, returns_now_iff, returns_pure_iff]
    constructor
    · rintro ⟨_, between, ⟨hcontinues, _, ⟨_, _, ⟨rfl, rfl⟩, rfl, rfl⟩, hlast⟩, hfinish⟩
      exact ⟨_, between, ⟨hcontinues, _, ⟨_, _, ⟨rfl, rfl⟩, rfl, rfl⟩, hlast⟩, hfinish⟩
    · rintro ⟨_, between, ⟨hcontinues, _, ⟨_, _, ⟨rfl, rfl⟩, rfl, rfl⟩, hlast⟩, hfinish⟩
      exact ⟨_, between, ⟨hcontinues, _, ⟨_, _, ⟨rfl, rfl⟩, rfl, rfl⟩, hlast⟩, hfinish⟩
  | directory root =>
    exact returns_bind_checkConfiguration_iff.trans (and_congr_right fun _ => returns_bind_iff)
  | project root m =>
    exact returns_bind_checkConfiguration_iff.trans (and_congr_right fun _ => returns_bind_iff)

/-! ## What is built -/

theorem eq_of_returns_build_manifest {m : Manifest} {b : Build}
    (h : Returns (a.build s (.manifest m)) session b session') :
    ∃ now, b = { graph := ofManifest a.configuration m now } := by
  obtain ⟨-, _, hbody, -⟩ := returns_phase_iff.mp h
  obtain ⟨now, _, -, hbody⟩ := returns_bind_iff.mp hbody
  obtain ⟨rfl, -⟩ := returns_pure_iff.mp hbody
  exact ⟨now, rfl⟩

theorem returns_ofDirectory_of_returns_build {root : WrittenPath} {b : Build}
    (h : Returns (a.build s (.directory root)) session b session') :
    ∃ started between, Returns (Build.ofDirectory a.configuration a.tools .inTurn s root) started b
      between := by
  obtain ⟨-, between, hbody, -⟩ := returns_phase_iff.mp h
  exact ⟨_, between, hbody⟩

/-- The graph of a project is that of its manifest merged with that of its directory. -/
theorem eq_of_returns_build_project {root : WrittenPath} {m : Manifest} {b : Build}
    (h : Returns (a.build s (.project root m)) session b session') :
    ∃ now sourced started between,
      Returns (Build.ofDirectory a.configuration (a.projectTools m) .inTurn s root) started sourced
        between ∧
      b = { sourced with graph := (ofManifest a.configuration m now).merge sourced.graph } := by
  obtain ⟨-, _, hbody, -⟩ := returns_phase_iff.mp h
  obtain ⟨now, started, -, hbody⟩ := returns_bind_iff.mp hbody
  obtain ⟨sourced, between, hsourced, hbody⟩ := returns_bind_iff.mp hbody
  obtain ⟨rfl, -⟩ := returns_pure_iff.mp hbody
  exact ⟨now, sourced, started, between, hsourced, rfl⟩

/-- What is worked through is a fresh graph. -/
theorem fresh_of_returns_build {subject : Subject} {b : Build}
    (h : Returns (a.build s subject) session b session') : b.graph.Fresh := by
  cases subject with
  | manifest m =>
    obtain ⟨now, rfl⟩ := eq_of_returns_build_manifest h
    exact fresh_ofManifest a.configuration m now
  | directory root =>
    obtain ⟨_, _, hbody⟩ := returns_ofDirectory_of_returns_build h
    exact Build.fresh_of_returns_ofDirectory hbody
  | project root m =>
    obtain ⟨now, sourced, _, _, hsourced, rfl⟩ := eq_of_returns_build_project h
    exact fresh_merge (fresh_ofManifest a.configuration m now)
      (Build.fresh_of_returns_ofDirectory hsourced)

/-! ## Working through a graph -/

/-- The graph after the first phase: critical nodes are marked. -/
def withCritical (a : Analyzer) (g : Graph) : Graph :=
  g.markCritical a.configuration.criticalNodes

/-- The cycles that are found, in the graph after the first phase. -/
def cyclesOf (a : Analyzer) (g : Graph) : List Cycle :=
  (a.withCritical g).findCycles

/-- The graph after the second phase: the members of cycles are marked too. -/
def withCyclic (a : Analyzer) (g : Graph) : Graph :=
  (a.withCritical g).markCyclic (a.cyclesOf g)

/-- The depths that are computed, in the graph after the second phase. -/
def depthsOf (a : Analyzer) (g : Graph) : Depths :=
  Depths.compute (a.withCyclic g)

/-- The graph after the third phase: every node has its depth. -/
def withDepths (a : Analyzer) (g : Graph) : Graph :=
  (a.depthsOf g).apply (a.withCyclic g)

/-- What is worked out of a build, given when vulnerabilities are looked for and when the analysis
ends. -/
def conclude (a : Analyzer) (b : Build) (looked ended : Timestamp) : Analysis :=
  let g := a.withDepths b.graph
  { graph := { g with statistics := some g.summarize, analyzedAt := some ended }
    cycles := a.cyclesOf b.graph
    criticalPath := (a.depthsOf b.graph).criticalPath
    vulnerabilities := a.vulnerabilitiesOf g looked
    optimizations := a.optimizationsOf g (a.cyclesOf b.graph)
    statistics := g.summarize
    filesAnalyzed := b.filesAnalyzed
    fileErrors := b.fileErrors }

theorem eq_conclude_of_returns_finish {b : Build} {found : Analysis}
    (h : Returns (a.finish s b) session found session') :
    ∃ looked ended, found = a.conclude b looked ended := by
  unfold finish at h
  simp only [returns_bind_iff, returns_phase_iff, returns_now_iff, returns_pure_iff] at h
  obtain ⟨_, _, ⟨-, _, ⟨rfl, rfl⟩, -⟩, _, _, ⟨-, _, ⟨rfl, rfl⟩, -⟩, _, _, ⟨-, _, ⟨rfl, rfl⟩, -⟩,
    _, _, ⟨-, _, ⟨looked, _, ⟨rfl, rfl⟩, rfl, rfl⟩, -⟩, _, _, ⟨-, _, ⟨rfl, rfl⟩, -⟩,
    _, _, ⟨-, _, ⟨rfl, rfl⟩, -⟩, ended, _, ⟨rfl, rfl⟩, rfl, -⟩ := h
  exact ⟨_, _, rfl⟩

/-- Nothing but an interruption keeps a build from being worked through. -/
theorem succeeds_finish (hs : ∀ world, s.Continues world) (a : Analyzer) (b : Build) :
    Succeeds (a.finish s b) := by
  unfold finish
  refine succeeds_bind (succeeds_phase hs (succeeds_pure _)) fun _ => ?_
  refine succeeds_bind (succeeds_phase hs (succeeds_pure _)) fun _ => ?_
  refine succeeds_bind (succeeds_phase hs (succeeds_pure _)) fun _ => ?_
  refine succeeds_bind (succeeds_phase hs ?_) fun _ => ?_
  · exact succeeds_bind (succeeds_now s) fun _ => succeeds_pure _
  refine succeeds_bind (succeeds_phase hs (succeeds_pure _)) fun _ => ?_
  refine succeeds_bind (succeeds_phase hs (succeeds_pure _)) fun _ => ?_
  exact succeeds_bind (succeeds_now s) fun _ => succeeds_pure _

end Analyzer

end DepGraph

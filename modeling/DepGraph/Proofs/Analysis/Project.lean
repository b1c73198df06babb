import DepGraph.Proofs.Analysis.Coherence
import DepGraph.Proofs.Build.Packages

/-!
# Projects extend manifests and directories

The analysis of a project takes in all that the analysis of its manifest and that of its directory
find. All it adds are the edges from scripts to the packages that they import.

- `exists_returns_analyze_iff`: without interruptions, an analysis returns if the configuration is
  valid and the graph can be built.
- `Analysis.Combines`: how what is found in a project goes with what is found in its parts.
- `Analyzer.project_combines`: this holds of every project.
-/

namespace DepGraph

open Build DepGraph.Graph Run

namespace Analyzer

variable {σ : Type} {s : Surroundings σ} {session session' : Session σ} {files : FileSystem}
  {a : Analyzer} {root : WrittenPath} {m : Manifest}

/-! ## When an analysis returns -/

section Steady

variable (hs : s.Steady files)

include hs

theorem exists_returns_analyze_iff {subject : Subject} :
    (∃ found session', Returns (a.analyze s subject) session found session') ↔
      a.configuration.check = .ok () ∧
        ∃ b between, Returns (a.build s subject) session b between := by
  simp only [returns_analyze_iff]
  constructor
  · rintro ⟨_, _, hcheck, b, between, hbuild, -⟩
    exact ⟨hcheck, b, between, hbuild⟩
  · rintro ⟨hcheck, b, between, hbuild⟩
    obtain ⟨found, session', hfinish⟩ := succeeds_finish hs.continues a b between
    exact ⟨found, session', hcheck, b, between, hbuild, hfinish⟩

theorem exists_returns_build_manifest :
    ∃ b between, Returns (a.build s (.manifest m)) session b between :=
  succeeds_phase hs.continues (succeeds_bind (succeeds_now s) fun _ => succeeds_pure _) session

theorem exists_returns_build_directory_iff :
    (∃ b between, Returns (a.build s (.directory root)) session b between) ↔
      ∃ place sources, Discovered a.configuration files root place sources :=
  (exists_returns_phase_iff hs.continues).trans (exists_returns_ofDirectory_iff hs _)

theorem exists_returns_build_project_iff :
    (∃ b between, Returns (a.build s (.project root m)) session b between) ↔
      ∃ place sources, Discovered a.configuration files root place sources := by
  refine (exists_returns_phase_iff hs.continues).trans ?_
  simp only [returns_bind_iff, returns_now_iff, returns_pure_iff]
  constructor
  · rintro ⟨_, _, _, _, ⟨-, rfl⟩, sourced, _, hsourced, -⟩
    exact (exists_returns_ofDirectory_iff hs _).mp ⟨sourced, _, hsourced⟩
  · intro hdiscovered
    obtain ⟨sourced, between, hsourced⟩ := (exists_returns_ofDirectory_iff hs _).mpr hdiscovered
    exact ⟨_, between, _, _, ⟨rfl, rfl⟩, sourced, between, hsourced, rfl, rfl⟩

end Steady

end Analyzer

/-! ## What is found in a project -/

/-- What is found in a project goes with what is found in its manifest and in its directory, given
the plan by which the directory is read and the source files in it. -/
structure Analysis.Combines (p : Plan) (files : FileSystem) (sources : List SourceFile)
    (m : Manifest) (project packages directory : Analysis) : Prop where
  mem_nodeIds_iff : ∀ id, id ∈ project.graph.nodeIds ↔
    id ∈ packages.graph.nodeIds ∨ id ∈ directory.graph.nodeIds
  /-- The only new edges lead from scripts to the packages that they import. -/
  mem_edgeKeys_iff : ∀ key, key ∈ project.graph.edgeKeys ↔ key ∈ directory.graph.edgeKeys ∨
    ∃ f ∈ sources, ∃ id, p.ImportsPackage files m f id ∧ key = ⟨f.id, id, .imports⟩
  /-- A package stays what the manifest says of it. -/
  keeps_node : ∀ id node, packages.graph.node? id = some node →
    ∃ node', project.graph.node? id = some node' ∧ node'.kind = node.kind ∧
      node'.version = node.version ∧ node'.source = node.source ∧
        node'.dependencyClass = node.dependencyClass
  filesAnalyzed_eq : project.filesAnalyzed = directory.filesAnalyzed
  fileErrors_eq : project.fileErrors = directory.fileErrors

namespace Analyzer

variable {a : Analyzer} {m : Manifest} {files : FileSystem}

/-- What is worked out of the builds goes together, whenever the analyses take place. -/
theorem combines_conclude (htools : a.tools = {}) {place : List FileName}
    {sources : List SourceFile} {sourced directory : Build}
    (hdirectory : Plan.Grown ⟨a.configuration, a.tools, place⟩ files sources directory)
    (hsourced : Plan.Grown ⟨a.configuration, a.projectTools m, place⟩ files sources sourced)
    (hsame : SameFiles sourced directory) (now now' t₁ t₂ t₃ t₄ t₅ t₆ : Timestamp) :
    Analysis.Combines ⟨a.configuration, a.tools, place⟩ files sources m
      (a.conclude { sourced with
        graph := (ofManifest a.configuration m now).merge sourced.graph } t₁ t₂)
      (a.conclude { graph := ofManifest a.configuration m now' } t₃ t₄)
      (a.conclude directory t₅ t₆) := by
  have hpackages : (a.conclude { graph := ofManifest a.configuration m now' } t₃ t₄).Coherent a _ :=
    coherent_conclude a (fresh_ofManifest a.configuration m now') t₃ t₄
  have hproject : (a.conclude { sourced with
      graph := (ofManifest a.configuration m now).merge sourced.graph } t₁ t₂).Coherent a _ :=
    coherent_conclude a (fresh_merge (fresh_ofManifest a.configuration m now) hsourced.fresh) t₁ t₂
  have hinDirectory := coherent_conclude a hdirectory.fresh t₅ t₆
  refine
    { mem_nodeIds_iff := fun id => ?_
      mem_edgeKeys_iff := fun key => ?_
      keeps_node := fun id node hnode => ?_
      filesAnalyzed_eq := hsame.filesAnalyzed_eq
      fileErrors_eq := hsame.fileErrors_eq }
  · rw [hproject.nodeIds_eq, hpackages.nodeIds_eq, hinDirectory.nodeIds_eq, mem_nodeIds_iff,
      mem_nodeIds_iff, mem_nodeIds_iff, contains_merge_project_iff htools hdirectory hsourced,
      contains_ofManifest_congr a.configuration m now' now]
  · rw [hproject.edgeKeys_eq, hinDirectory.edgeKeys_eq]
    exact mem_edgeKeys_merge_project_iff htools hdirectory hsourced
  · -- from the manifest's analysis to its graph, from there through the merge to the project's
    obtain ⟨declared, hdeclared, hfound⟩ := hpackages.exists_built_node? hnode
    have hdeclared' : (ofManifest a.configuration m now).node? id = some declared := by
      rw [node?_ofManifest, ← node?_ofManifest a.configuration m now']
      exact hdeclared
    obtain ⟨merged, hnode', hkept⟩ :=
      exists_node?_merge_of_left hsourced.fresh.toConsistent hdeclared'
    obtain ⟨node', hproject', hfound'⟩ := hproject.exists_node? hnode'
    have heq : node'.withoutFindings.isolated = node.withoutFindings.isolated := by
      rw [hfound', ← hfound]
      exact congrArg Node.withoutFindings hkept
    exact ⟨node', hproject', (congrArg Node.kind heq :), (congrArg Node.version heq :),
      (congrArg Node.source heq :), (congrArg Node.dependencyClass heq :)⟩

/-- **A project extends its manifest and its directory.** With the usual tools and without
interruptions, the analysis of a project returns exactly if that of its manifest and that of its
directory do, and it combines what these two find. -/
theorem project_combines {σ : Type} {s : Surroundings σ} (hs : s.Steady files)
    (htools : a.tools = {}) (root : WrittenPath) (m : Manifest) :
    (∀ session, (∃ project session',
        Returns (a.analyzeProject s root m) session project session') ↔
      (∃ packages session', Returns (a.analyzeManifest s m) session packages session') ∧
        ∃ directory session', Returns (a.analyzeDirectory s root) session directory session') ∧
    ∀ (before after before' after' before'' after'' : Session σ)
      (project packages directory : Analysis),
      Returns (a.analyzeProject s root m) before project after →
      Returns (a.analyzeManifest s m) before' packages after' →
      Returns (a.analyzeDirectory s root) before'' directory after'' →
      ∃ place sources, Discovered a.configuration files root place sources ∧
        Analysis.Combines ⟨a.configuration, a.tools, place⟩ files sources m project packages
          directory := by
  constructor
  · -- all three check the configuration; beyond that, the source files have to be found
    intro session
    show (∃ project session', Returns (a.analyze s (.project root m)) session project session') ↔
      (∃ packages session', Returns (a.analyze s (.manifest m)) session packages session') ∧
        ∃ directory session', Returns (a.analyze s (.directory root)) session directory session'
    rw [exists_returns_analyze_iff hs, exists_returns_analyze_iff hs,
      exists_returns_analyze_iff hs, exists_returns_build_project_iff hs,
      exists_returns_build_directory_iff hs]
    exact ⟨fun h => ⟨⟨h.1, exists_returns_build_manifest hs⟩, h⟩, And.right⟩
  · intro before after before' after' before'' after'' project packages directory hproject hpackages
      hdirectory
    change Returns (a.analyze s (.project root m)) before project after at hproject
    change Returns (a.analyze s (.manifest m)) before' packages after' at hpackages
    change Returns (a.analyze s (.directory root)) before'' directory after'' at hdirectory
    -- 1. each analysis builds a graph and concludes from it
    obtain ⟨-, _, _, hbuild, hfinish⟩ := returns_analyze_iff.mp hproject
    obtain ⟨-, _, _, hbuild', hfinish'⟩ := returns_analyze_iff.mp hpackages
    obtain ⟨-, _, _, hbuild'', hfinish''⟩ := returns_analyze_iff.mp hdirectory
    obtain ⟨_, _, rfl⟩ := eq_conclude_of_returns_finish hfinish
    obtain ⟨_, _, rfl⟩ := eq_conclude_of_returns_finish hfinish'
    obtain ⟨_, _, rfl⟩ := eq_conclude_of_returns_finish hfinish''
    -- 2. both runs over the directory find the same source files
    obtain ⟨now, sourced, _, _, hsourced, rfl⟩ := eq_of_returns_build_project hbuild
    obtain ⟨now', rfl⟩ := eq_of_returns_build_manifest hbuild'
    obtain ⟨_, _, hdirectory⟩ := returns_ofDirectory_of_returns_build hbuild''
    obtain ⟨place, sources, createdAt, hdiscovered, hsourced⟩ :=
      eq_after_of_returns_ofDirectory hs.files_eq hsourced
    obtain ⟨_, _, createdAt', hdiscovered', rfl⟩ :=
      eq_after_of_returns_ofDirectory hs.files_eq hdirectory
    obtain ⟨rfl, rfl⟩ := hdiscovered.unique hdiscovered'
    -- 3. and process them one after another, with other resolvers
    have hgrown := Plan.grown_after
      (Plan.grown_nil ⟨a.configuration, a.projectTools m, place⟩ files createdAt) sources
    have hgrown' := Plan.grown_after
      (Plan.grown_nil ⟨a.configuration, a.tools, place⟩ files createdAt') sources
    rw [List.nil_append, ← hsourced] at hgrown
    have hparsers : (a.projectTools m).parsers = a.tools.parsers := rfl
    have hsame := sameFiles_after hparsers a.configuration place files sources
      (⟨rfl, rfl⟩ : SameFiles { graph := { createdAt } } { graph := { createdAt := createdAt' } })
    rw [← hsourced] at hsame
    exact ⟨place, sources, hdiscovered, combines_conclude htools hgrown' hgrown hsame ..⟩

/-- A script that imports two packages, and a script that imports the first one. -/
def packageImports : FileSystem :=
  (({} : FileSystem).write [.named "page.js"]
    { bytes := "import \"left-pad/lib\"; import \"react\"".toUTF8 }).write
    [.named "site.js"] { bytes := "import \"./page\"".toUTF8 }

/-- A package that is declared twice, and one that is declared in a class that does not count. -/
def padded : Manifest :=
  { Manifest.ofPairs [("left-pad", "1.0.0")] with
    development := (Manifest.ofPairs [("left-pad", "2.0.0"), ("react", "18.2.0")]).production }

theorem project_combines_padded :
    ∃ project packages directory after after' after'',
      Returns (({} : Analyzer).analyzeProject (.still packageImports) "/" padded) ⟨(), #[]⟩
        project after ∧
      Returns (({} : Analyzer).analyzeManifest (.still packageImports) padded) ⟨(), #[]⟩
        packages after' ∧
      Returns (({} : Analyzer).analyzeDirectory (.still packageImports) "/") ⟨(), #[]⟩
        directory after'' ∧
      ((project.graph.edges.toList.map fun e => (e.source, e.target)) ==
        [("page.js", "left-pad@1.0.0"), ("site.js", "page.js")]) = true ∧
      ∃ place sources, Discovered {} packageImports "/" place sources ∧
        Analysis.Combines ⟨{}, {}, place⟩ packageImports sources padded project packages
          directory := by
  have hcombines := project_combines (a := {}) (Surroundings.steady_still packageImports) rfl "/"
    padded
  obtain ⟨project, after, hproject, hedges⟩ := exists_returns_of_any
    (({} : Analyzer).analyzeProject (.still packageImports) "/" padded) ⟨(), #[]⟩
    (fun project => (project.graph.edges.toList.map fun e => (e.source, e.target)) ==
      [("page.js", "left-pad@1.0.0"), ("site.js", "page.js")]) (by decide +kernel)
  obtain ⟨⟨packages, after', hpackages⟩, directory, after'', hdirectory⟩ :=
    (hcombines.1 ⟨(), #[]⟩).mp ⟨project, after, hproject⟩
  exact ⟨project, packages, directory, after, after', after'', hproject, hpackages, hdirectory,
    hedges, hcombines.2 _ _ _ _ _ _ _ _ _ hproject hpackages hdirectory⟩

end Analyzer

end DepGraph

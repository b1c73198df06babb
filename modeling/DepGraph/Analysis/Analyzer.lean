import DepGraph.Analysis.Depth
import DepGraph.Analysis.Optimization
import DepGraph.Analysis.Summary
import DepGraph.Analysis.Vulnerability
import DepGraph.Build.Directory
import DepGraph.Resolve.Declared

/-!
# Analyzing

An analysis builds a graph, from a manifest, from a directory or from both, and then works through
it phase by phase: it marks the critical nodes and the cyclic ones, writes down the depths, and
looks for vulnerabilities and for optimizations. The statistics come last.
-/

namespace DepGraph

/-- What an analysis found. -/
structure Analysis where
  graph : Graph
  cycles : List Cycle
  criticalPath : List String
  vulnerabilities : List Vulnerability
  optimizations : List Optimization
  statistics : Statistics
  filesAnalyzed : Nat
  fileErrors : Array FileError

namespace Analysis

/-- The number of dependencies in the graph. -/
def dependenciesFound (a : Analysis) : Nat :=
  a.graph.edgeCount

/-- The number of cycles and vulnerabilities. -/
def issuesIdentified (a : Analysis) : Nat :=
  a.cycles.length + a.vulnerabilities.length

/-- The number of suggestions. -/
def optimizationsProposed (a : Analysis) : Nat :=
  a.optimizations.length

end Analysis

/-- Marks the nodes whose identifier or name is in the list as critical. -/
def Graph.markCritical (g : Graph) (names : List String) : Graph :=
  (g.nodes.filter fun node => names.contains node.id || names.contains node.name).foldl
    (fun g node => g.modifyNode node.id fun node => { node with critical := true }) g

/-- What an analysis works with. -/
structure Analyzer where
  configuration : Configuration := {}
  tools : Toolbox := {}
  /-- The strategy for similar names, if it is not that of the configuration. -/
  similarity : Option Similarity := none

namespace Analyzer

variable {σ : Type}

/-- The strategy for similar names. -/
def similarityInUse (a : Analyzer) : Similarity :=
  a.similarity.getD (.ofConfiguration a.configuration)

/-! ## The phases after the graph is built -/

/-- The vulnerabilities of a graph, if they are looked for. -/
def vulnerabilitiesOf (a : Analyzer) (g : Graph) (now : Timestamp) : List Vulnerability :=
  if a.configuration.detectVulnerabilities then
    g.findVulnerabilities a.configuration.riskyNamePatterns now
  else []

/-- The optimizations of a graph, if they are looked for. -/
def optimizationsOf (a : Analyzer) (g : Graph) (cycles : List Cycle) : List Optimization :=
  if a.configuration.suggestOptimizations then g.suggestOptimizations cycles a.similarityInUse
  else []

/-- Works through a graph that was built. -/
def finish (a : Analyzer) (s : Surroundings σ) (b : Build) : Run σ Analysis := do
  let g ← Run.phase s .annotate <| pure (b.graph.markCritical a.configuration.criticalNodes)
  let (g, cycles) ← Run.phase s .cycles do
    let cycles := g.findCycles
    pure (g.markCyclic cycles, cycles)
  let (g, criticalPath) ← Run.phase s .criticalPath do
    let depths := Depths.compute g
    pure (depths.apply g, depths.criticalPath)
  let vulnerabilities ← Run.phase s .vulnerabilities do
    return a.vulnerabilitiesOf g (← Run.now s)
  let optimizations ← Run.phase s .optimizations <| pure (a.optimizationsOf g cycles)
  let statistics ← Run.phase s .stats <| pure g.summarize
  let graph := { g with statistics := some statistics, analyzedAt := some (← Run.now s) }
  return {
    graph, cycles, criticalPath, vulnerabilities, optimizations, statistics
    filesAnalyzed := b.filesAnalyzed
    fileErrors := b.fileErrors }

/-! ## Kinds of analyses -/

/-- Fails unless the configuration is valid. -/
def checkConfiguration (a : Analyzer) : Run σ Unit :=
  MonadExcept.ofExcept a.configuration.check

/-- Analyzes the packages of a manifest. -/
def analyzeManifest (a : Analyzer) (s : Surroundings σ) (m : Manifest) : Run σ Analysis := do
  a.checkConfiguration
  let graph ← Run.phase s .build do
    return Graph.ofManifest a.configuration m (← Run.now s)
  a.finish s { graph }

/-- The manifest in a package file. -/
def manifestAt (s : Surroundings σ) (path : WrittenPath) : Run σ Manifest := do
  match (← Run.files s).readManifest path with
  | .ok m => return m
  | .error e => throw (.ofManifest path e)

/-- Analyzes the packages of the manifest in a file. -/
def analyzeManifestFile (a : Analyzer) (s : Surroundings σ) (path : WrittenPath) :
    Run σ Analysis := do
  let m ← manifestAt s path
  a.analyzeManifest s m

/-- Analyzes the sources in a directory. -/
def analyzeDirectory (a : Analyzer) (s : Surroundings σ) (root : WrittenPath) :
    Run σ Analysis := do
  a.checkConfiguration
  let build ← Run.phase s .build <| Build.ofDirectory a.configuration a.tools .inTurn s root
  a.finish s build

/-- Analyzes the sources in a directory, all of which are read beforehand. -/
def analyzeDirectoryReading (a : Analyzer) (order : Nat → List Nat) (s : Surroundings σ)
    (root : WrittenPath) : Run σ Analysis := do
  a.checkConfiguration
  let build ← Run.openPhase s .build <|
    Build.ofDirectory a.configuration a.tools (.beforehand order) s root
  a.finish s build

/-- The tools with which the sources of a project are read: its scripts can import the packages of
its manifest. -/
def projectTools (a : Analyzer) (m : Manifest) : Toolbox :=
  { a.tools with
    resolvers := a.tools.resolvers.register (.declared (m.select a.configuration.selection)) }

/-- Analyzes the packages of a manifest together with the sources in a directory. -/
def analyzeProject (a : Analyzer) (s : Surroundings σ) (root : WrittenPath) (m : Manifest) :
    Run σ Analysis := do
  a.checkConfiguration
  let build ← Run.phase s .build do
    let packages := Graph.ofManifest a.configuration m (← Run.now s)
    let build ← Build.ofDirectory a.configuration (a.projectTools m) .inTurn s root
    return { build with graph := packages.merge build.graph }
  a.finish s build

end Analyzer

end DepGraph

import DepGraph.Analysis.Analyzer
import DepGraph.Decimal.Layout

/-!
# Summaries

What an analysis found, in a few lines for people. A list of findings has a heading that counts
them, and is left out when it is empty.
-/

namespace DepGraph.Analysis

/-- A list of findings under its heading. -/
def listText (heading : String) (lines : List String) : String :=
  if lines.isEmpty then ""
  else
    let count := lines.length
    s!"\n{heading} ({count}):\n" ++ String.join (lines.map fun line => "  " ++ line ++ "\n")

/-- The figures of the graph and of the run. -/
def figures (a : Analysis) (milliseconds : Nat) : String :=
  let s := a.statistics
  let density := Decimal.fixed 4 s.density
  let complexity := Decimal.fixed 2 s.complexity
  s!"Nodes: {s.totalNodes}  Edges: {s.totalEdges}\n" ++
    s!"Max depth: {s.maxDepth}  Density: {density}  Complexity: {complexity}\n" ++
    s!"Files analyzed: {a.filesAnalyzed}  Time: {milliseconds} ms\n"

/-- The critical path, if there is one. -/
def criticalPathText (a : Analysis) : String :=
  if a.criticalPath.isEmpty then ""
  else "\nCritical path: " ++ " -> ".intercalate a.criticalPath ++ "\n"

/-- What an analysis found, given how long it took. -/
def summary (a : Analysis) (milliseconds : Nat) : String :=
  a.figures milliseconds ++ a.criticalPathText ++
    listText "Cycles" (a.cycles.map fun c => s!"[{c.severity.name}] {c.path}") ++
    listText "Vulnerabilities"
      (a.vulnerabilities.map fun v => s!"[{v.severity.name}] {v.nodeId}: {v.description}") ++
    listText "Optimizations"
      (a.optimizations.map fun o =>
        let targets := ", ".intercalate o.targets
        s!"[{o.kind.name}] {targets}: {o.impact}") ++
    listText "Skipped files" (a.fileErrors.toList.map FileError.text)

theorem listText_nil (heading : String) : listText heading [] = "" := rfl

end DepGraph.Analysis

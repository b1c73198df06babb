import DepGraph.Analysis.Cycle
import DepGraph.Analysis.Similarity

/-!
# Optimizations

Suggestions in four blocks: cycles to break, packages to remove, packages to consolidate, and nodes
to load late.

* `isLazy_iff`: which nodes are better loaded late.
-/

namespace DepGraph

/-- What a suggestion asks for. -/
inductive OptimizationKind where
  | remove
  | replace
  | update
  | bundle
  | lazyLoad
  | cache
  deriving Repr, DecidableEq

/-- The written form of the kind. -/
def OptimizationKind.name : OptimizationKind → String
  | .remove => "remove"
  | .replace => "replace"
  | .update => "update"
  | .bundle => "bundle"
  | .lazyLoad => "lazy-load"
  | .cache => "cache"

/-- How much effort something takes, or how much it brings. -/
inductive Amount where
  | low
  | medium
  | high
  deriving Repr, DecidableEq

/-- The written form of the amount. -/
def Amount.name : Amount → String
  | .low => "low"
  | .medium => "medium"
  | .high => "high"

/-- A suggestion. -/
structure Optimization where
  kind : OptimizationKind
  targets : List String
  impact : String
  effort : Amount
  benefit : Amount
  steps : List String
  deriving Repr, DecidableEq

namespace Optimization

/-- Larger nodes are better loaded late. -/
def lazyBytes : Nat := 500 * 1024

/-- Nodes with more dependencies are better loaded late. -/
def lazyDependencies : Nat := 10

/-- Deeper nodes are better loaded late. -/
def lazyDepth : Nat := 5

/-- The member of a cycle whose dependency is best cut: the last but one, or the only one. -/
def cutMember? (members : List String) : Option String :=
  match members.reverse with
  | _ :: target :: _ => some target
  | [target] => some target
  | [] => none

/-- Breaks a bad cycle. -/
def ofCycle (c : Cycle) : Option Optimization :=
  if c.severity.rank < Severity.high.rank then none
  else
    (cutMember? c.members).map fun target =>
      { kind := .remove
        targets := [target]
        impact := s!"Breaks the {c.severity.name} cycle {c.path}"
        effort := .medium
        benefit := .high
        steps :=
          [s!"Remove or invert the dependency held by {target}",
            "Move shared code into a module both sides can import",
            "Re-run the analysis to confirm the cycle is gone"] }

/-- Is the node a package that nothing depends on? -/
def isUnused (n : Node) : Bool :=
  n.kind == .package && n.dependents.isEmpty

/-- Removes a package that nothing depends on. -/
def ofUnused (n : Node) : Optimization where
  kind := .remove
  targets := [n.id]
  impact := s!"Drops unused dependency {n.name}"
  effort := .low
  benefit := .medium
  steps := [s!"Confirm nothing imports {n.name}", s!"Remove {n.name} from the manifest"]

/-- Consolidates the packages of a group of names. -/
def ofGroup (packages : List Node) (group : String × List String) : Optimization :=
  let key := group.1
  let names := group.2
  let count := names.length
  let list := ", ".intercalate names
  { kind := .replace
    targets := (packages.filter fun n => names.contains n.name).map (·.id)
    impact := s!"Consolidates {count} related '{key}' packages"
    effort := .medium
    benefit := .medium
    steps :=
      [s!"Review overlap between {list}",
        "Keep the smallest set that covers current usage"] }

/-- Is the node large enough to be loaded late? -/
def isBulky (n : Node) : Bool :=
  n.size.any (· > lazyBytes)

/-- Is the node better loaded late? -/
def isLazy (n : Node) : Bool :=
  isBulky n || n.dependencies.size > lazyDependencies || n.depth > lazyDepth

/-- Loads a node late. -/
def ofLazy (n : Node) : Optimization where
  kind := .lazyLoad
  targets := [n.id]
  impact :=
    match n.size with
    | some size => s!"Defers loading {n.name} ({size} bytes)"
    | none => s!"Defers loading {n.name}"
  effort := .medium
  benefit := if isBulky n then .high else .medium
  steps := [s!"Load {n.name} through a dynamic import", "Keep it off the startup path"]

/-- Nodes by size, the largest first; nodes of the same size stay in order. -/
def bySize (nodes : List Node) : List Node :=
  nodes.mergeSort fun a b => b.size.getD 0 ≤ a.size.getD 0

theorem isLazy_iff (n : Node) :
    isLazy n = true ↔
      (∃ size, n.size = some size ∧ 512000 < size) ∨ 10 < n.dependencies.size ∨ 5 < n.depth := by
  cases h : n.size <;>
    simp [isLazy, isBulky, h, lazyBytes, lazyDependencies, lazyDepth, or_assoc]

end Optimization

/-- The suggestions for a graph with these cycles. -/
def Graph.suggestOptimizations (g : Graph) (cycles : List Cycle) (similarity : Similarity) :
    List Optimization :=
  let packages := g.nodesOfKind .package
  cycles.filterMap Optimization.ofCycle ++
    (g.nodes.filter Optimization.isUnused).map Optimization.ofUnused ++
    (similarity.groups (packages.map (·.name))).map (Optimization.ofGroup packages) ++
    (Optimization.bySize (g.nodes.filter Optimization.isLazy)).map Optimization.ofLazy

end DepGraph

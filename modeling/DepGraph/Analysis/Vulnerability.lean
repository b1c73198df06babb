import DepGraph.Analysis.Severity
import DepGraph.Configuration
import DepGraph.Graph.Basic
import DepGraph.Text.LowerCase
import DepGraph.Text.Pieces

/-!
# Vulnerabilities

Findings about single nodes: suspicious names of packages, large or busy nodes, and files that
nobody has changed for long. They are listed category by category.

* `isStale_iff`: a node is stale when it was last changed more than a year ago.
-/

namespace DepGraph

/-- What a finding is about. -/
inductive VulnerabilityKind where
  | security
  | performance
  | maintenance
  | compatibility
  deriving Repr, DecidableEq

/-- The written form of the kind. -/
def VulnerabilityKind.name : VulnerabilityKind → String
  | .security => "security"
  | .performance => "performance"
  | .maintenance => "maintenance"
  | .compatibility => "compatibility"

/-- A finding about a node. -/
structure Vulnerability where
  nodeId : String
  kind : VulnerabilityKind
  severity : Severity
  description : String
  recommendation : String
  deriving Repr, DecidableEq

namespace Vulnerability

/-- Larger nodes are large: a mebibyte. -/
def largeBytes : Nat := 1024 * 1024

/-- More dependencies are too many. -/
def manyDependencies : Nat := 20

/-- After so many days a file is stale. -/
def staleDays : Nat := 365

/-- Does the name hold the text, whatever the case of both? -/
def holdsText (name part : String) : Bool :=
  !part.isEmpty && Text.occursIn (Text.lowered part).toList (Text.lowered name).toList

/-- A package whose name holds a suspicious text. -/
def ofName (patterns : List String) (n : Node) : Option Vulnerability :=
  if n.kind == .package then
    (patterns.find? (holdsText n.name)).map fun pattern =>
      { nodeId := n.id
        kind := .security
        severity := .medium
        description := s!"Package name '{n.name}' matches risky pattern '{pattern}'"
        recommendation := "Audit the package source and prefer a vetted alternative" }
  else none

/-- A large node. -/
def ofSize (n : Node) : Option Vulnerability :=
  (n.size.filter (· > largeBytes)).map fun size =>
    { nodeId := n.id
      kind := .performance
      severity := .medium
      description := s!"Large dependency: {size} bytes"
      recommendation := "Split the module or load it lazily" }

/-- A node with many dependencies. -/
def ofDependencies (n : Node) : Option Vulnerability :=
  if n.dependencies.size > manyDependencies then
    let count := n.dependencies.size
    some
      { nodeId := n.id
        kind := .performance
        severity := .low
        description := s!"Excessive dependencies: {count}"
        recommendation := "Reduce direct dependencies or split responsibilities" }
  else none

/-- Is the span longer than it takes to become stale? -/
def isStale (nanoseconds : Int) : Bool :=
  nanoseconds > staleDays * Timestamp.dayNanoseconds

/-- A node that nobody has changed for long. -/
def ofAge (now : Timestamp) (n : Node) : Option Vulnerability := do
  let modified ← n.lastModified
  let age := now.since modified
  if isStale age then
    let days := Int.tdiv age Timestamp.dayNanoseconds
    some
      { nodeId := n.id
        kind := .maintenance
        severity := .low
        description := s!"Not modified for {days} days"
        recommendation := "Review whether the code is still maintained" }
  else none

theorem isStale_iff (nanoseconds : Int) :
    isStale nanoseconds = true ↔ 365 * 86400 * 1000000000 < nanoseconds := by
  simp [isStale, staleDays, Timestamp.dayNanoseconds]

end Vulnerability

/-- The findings about the nodes of a graph at a point in time. -/
def Graph.findVulnerabilities (g : Graph) (patterns : List String) (now : Timestamp) :
    List Vulnerability :=
  g.nodes.filterMap (Vulnerability.ofName patterns) ++
    g.nodes.flatMap (fun n =>
      (Vulnerability.ofSize n).toList ++ (Vulnerability.ofDependencies n).toList) ++
    g.nodes.filterMap (Vulnerability.ofAge now)

end DepGraph

import DepGraph.Path

/-!
# Progress

The phases of a run, and the events by which it reports how far it has come.
-/

namespace DepGraph

/-- A phase of a run. -/
inductive Phase where
  | build
  | annotate
  | cycles
  | criticalPath
  | vulnerabilities
  | optimizations
  | stats
  deriving Repr, DecidableEq

namespace Phase

/-- The name of the phase. -/
def name : Phase → String
  | .build => "Build"
  | .annotate => "Annotate"
  | .cycles => "Cycles"
  | .criticalPath => "CriticalPath"
  | .vulnerabilities => "Vulnerabilities"
  | .optimizations => "Optimizations"
  | .stats => "Stats"

/-- All phases, in order. -/
def all : List Phase :=
  [.build, .annotate, .cycles, .criticalPath, .vulnerabilities, .optimizations, .stats]

end Phase

/-- An event that a run reports. -/
inductive Event where
  | started (phase : Phase)
  | completed (phase : Phase)
  /-- So many source files were found. -/
  | discovered (count : Nat)
  /-- A source file was processed and gave so many edges. -/
  | processed (path : WrittenPath) (edges : Nat)
  /-- A source file was passed over. -/
  | failed (path : WrittenPath) (message : String)
  deriving Repr, DecidableEq

end DepGraph

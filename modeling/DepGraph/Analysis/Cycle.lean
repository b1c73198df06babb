import DepGraph.Analysis.Severity
import DepGraph.Graph.Adjacency

/-!
# Cycles

The cycles that a depth-first search closes, with how bad they are and what may be done about them.
Every edge that leads back on the way of the search closes one.

* `length_members_classify`: the length of a cycle counts its members.
* `severity_eq_critical_iff`: a cycle is critical exactly when it is long.
-/

namespace DepGraph

/-- Nodes of which each depends on the next, and the last on the first. -/
structure Cycle where
  members : List String
  length : Nat
  severity : Severity
  suggestions : List String
  deriving Repr, DecidableEq

namespace Cycle

/-- The cycle as shown to people, with its first member again at the end. -/
def path (c : Cycle) : String :=
  " -> ".intercalate (c.members ++ c.members.head?.toList)

/-- Is the node a member? -/
def contains (c : Cycle) (id : String) : Bool :=
  c.members.contains id

/-! ## Classifying -/

/-- Longer cycles are critical. -/
def criticalLength : Nat := 5

/-- Longer cycles are bad, as are those with a critical member. -/
def highLength : Nat := 3

/-- How bad a cycle with these members is. -/
def severityOf (g : Graph) (members : List String) : Severity :=
  if members.length > criticalLength then .critical
  else if members.length > highLength || members.any fun id => (g.node? id).any (·.critical) then
    .high
  else .medium

/-- The pairs of members of which the first depends on the second. -/
def links (members : List String) : List (String × String) :=
  members.zip (members.drop 1 ++ members.take 1)

/-- The first pair of members that an optional edge joins. -/
def optionalLink? (g : Graph) (members : List String) : Option (String × String) :=
  (links members).find? fun (source, target) =>
    (g.edgesFrom source).any fun e => e.target == target && e.optional

/-- What may be done about a cycle with these members. -/
def suggestionsFor (g : Graph) (members : List String) : List String :=
  ((optionalLink? g members).map fun (source, target) =>
    s!"Remove the optional dependency from {source} to {target}").toList ++
    ["Use dependency injection to break the cycle",
      "Extract a shared interface to remove the direct edge"]

/-- The cycle with these members. -/
def classify (g : Graph) (members : List String) : Cycle where
  members
  length := members.length
  severity := severityOf g members
  suggestions := suggestionsFor g members

@[simp] theorem length_members_classify (g : Graph) (members : List String) :
    (classify g members).length = (classify g members).members.length := rfl

theorem severity_eq_critical_iff (g : Graph) (members : List String) :
    severityOf g members = .critical ↔ criticalLength < members.length := by
  unfold severityOf
  split
  · simp_all
  · split <;> simp_all

end Cycle

namespace Graph

/-- The cycles that the search from the nodes in the order of their identifiers closes. -/
def findCycles (g : Graph) : List Cycle :=
  (DepthFirst.cycles g.firstSeen).map (Cycle.classify g)

/-- Marks the members of the cycles as cyclic. -/
def markCyclic (g : Graph) (cycles : List Cycle) : Graph :=
  (cycles.flatMap (·.members)).foldl
    (fun g id => g.modifyNode id fun node => { node with cyclic := true }) g

end Graph

end DepGraph

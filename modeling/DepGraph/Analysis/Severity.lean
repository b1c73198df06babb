/-!
# Severities

How bad a finding is.
-/

namespace DepGraph

/-- How bad a finding is, from the mildest on. -/
inductive Severity where
  | low
  | medium
  | high
  | critical
  deriving Repr, DecidableEq

namespace Severity

/-- The written form of the severity. -/
def name : Severity → String
  | .low => "low"
  | .medium => "medium"
  | .high => "high"
  | .critical => "critical"

/-- The place of the severity in the order. -/
def rank : Severity → Nat
  | .low => 0
  | .medium => 1
  | .high => 2
  | .critical => 3

/-- The severity with the given written form. -/
def ofName? (name : String) : Option Severity :=
  [low, medium, high, critical].find? (·.name == name)

end Severity

end DepGraph

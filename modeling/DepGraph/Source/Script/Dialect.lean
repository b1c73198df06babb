/-!
# Dialects of scripts

The three dialects share one language. They differ in whether types and whether markup may be
written in it.

* `Dialect.hasTypes_or_hasMarkup`: an angle bracket before an operand always means something.
-/

namespace DepGraph.Script

/-- The language variants. -/
inductive Dialect where
  | javaScript
  | typeScript
  | tsx
  deriving Repr, DecidableEq

namespace Dialect

/-- May an expression hold markup? -/
def hasMarkup : Dialect → Bool
  | .javaScript | .tsx => true
  | .typeScript => false

/-- May types be written? -/
def hasTypes : Dialect → Bool
  | .typeScript | .tsx => true
  | .javaScript => false

theorem hasTypes_or_hasMarkup (d : Dialect) : d.hasTypes ∨ d.hasMarkup := by
  cases d <;> simp [hasTypes, hasMarkup]

/-- The written form of the dialect. -/
def name : Dialect → String
  | .javaScript => "JavaScript"
  | .typeScript => "TypeScript"
  | .tsx => "Tsx"

/-- The dialect of a file with the given extension, in lower case. -/
def ofLowerExtension? (extension : String) : Option Dialect :=
  if ["js", "mjs", "cjs", "jsx"].contains extension then some .javaScript
  else if ["ts", "mts", "cts"].contains extension then some .typeScript
  else if extension == "tsx" then some .tsx
  else none

end Dialect

end DepGraph.Script

import DepGraph.Error
import DepGraph.Glob.Match

/-!
# Configuration

What an analysis looks at and what it looks for. Every setting has a default, so that a
configuration may be written down in part.

* `Configuration.check_eq_ok_iff`: what makes a configuration valid.
-/

namespace DepGraph

/-- The settings of an analysis. -/
structure Configuration where
  /-- The classes of a manifest that count beside the production class. -/
  selection : Selection := { optional := true }
  /-- How deep below the root a file may be; a file directly in the root is at depth one. -/
  maxDepth : Option Nat := none
  /-- Patterns of which a file has to match one. -/
  includePatterns : List String :=
    ["**/*.js", "**/*.jsx", "**/*.mjs", "**/*.cjs", "**/*.ts", "**/*.tsx", "**/*.mts", "**/*.cts",
      "**/*.py"]
  /-- Patterns of which neither a file nor a directory above it may match one. -/
  excludePatterns : List String := ["**/*.d.ts", "**/*.min.js", "**/*.test.*", "**/*.spec.*"]
  /-- The names of directories that are passed over. -/
  ignoredDirs : List String :=
    ["node_modules", ".git", "dist", "build", ".next", "coverage", ".turbo", "__pycache__"]
  detectVulnerabilities : Bool := true
  suggestOptimizations : Bool := true
  /-- Parts of names of packages that raise a suspicion. -/
  riskyNamePatterns : List String := ["eval", "exec", "shell", "unsafe"]
  /-- The identifiers and names of critical nodes. -/
  criticalNodes : List String := []
  /-- How many files may be read at the same time. -/
  maxConcurrentReads : Nat := 16
  /-- Beginnings of names of packages that belong together. -/
  similarPrefixes : List String :=
    ["@babel/", "@types/", "babel-plugin-", "eslint-plugin-", "eslint-config-", "webpack-"]
  /-- Ends of names of packages that belong together. -/
  similarSuffixes : List String := ["-loader", "-plugin", "-preset"]

namespace Configuration

/-! ## Patterns -/

/-- The patterns in these texts. -/
def patternSet (texts : List String) : Except Error Glob.PatternSet :=
  match Glob.PatternSet.ofTexts texts with
  | .ok set => .ok set
  | .error (text, _) => .error (.invalidPattern text)

/-- The patterns of which a file has to match one. -/
def includeSet (c : Configuration) : Except Error Glob.PatternSet :=
  patternSet c.includePatterns

/-- The patterns of which a file may match none. -/
def excludeSet (c : Configuration) : Except Error Glob.PatternSet :=
  patternSet c.excludePatterns

/-! ## Validity -/

/-- The first thing that is wrong with the settings. -/
def check (c : Configuration) : Except Error Unit :=
  if c.maxConcurrentReads == 0 then
    .error (.configuration "max_concurrent_reads must be at least 1")
  else if c.maxDepth == some 0 then .error (.configuration "max_depth must be at least 1")
  else
    match c.includeSet with
    | .error e => .error e
    | .ok _ =>
      match c.excludeSet with
      | .error e => .error e
      | .ok _ => .ok ()

theorem check_eq_ok_iff (c : Configuration) :
    c.check = .ok () ↔
      c.maxConcurrentReads ≠ 0 ∧ c.maxDepth ≠ some 0 ∧
        (∃ set, c.includeSet = .ok set) ∧ ∃ set, c.excludeSet = .ok set := by
  unfold check
  by_cases h : c.maxConcurrentReads = 0
  · simp [h]
  by_cases h' : c.maxDepth = some 0
  · simp [h, h']
  cases hi : c.includeSet <;> cases he : c.excludeSet <;> simp [h, h']

/-! ## Reading and writing -/

/-- The names of the settings, in order. -/
def fieldNames : List String :=
  ["include_dev_dependencies", "include_peer_dependencies", "include_optional_dependencies",
    "max_depth", "include_patterns", "exclude_patterns", "ignored_dirs", "detect_vulnerabilities",
    "suggest_optimizations", "risky_name_patterns", "critical_nodes", "max_concurrent_reads",
    "similar_prefixes", "similar_suffixes"]

/-- A size that fits a machine word of 64 bits. -/
def asSize? (json : Json) : Option Nat :=
  json.asNat?.filter (· < UInt64.size)

/-- Reads the record. What is missing has its default. -/
def ofJson? (json : Json) : Option Configuration := do
  let d : Configuration := {}
  let bool (default : Bool) := Json.fieldOr default Json.asBool?
  let texts (default : List String) := Json.fieldOr default Json.asTexts?
  match ← json.record? fieldNames with
  | [development, peer, optional, maxDepth, includes, excludes, ignored, detect, suggest, risky,
      critical, reads, starts, ends] =>
    return {
      selection := {
        development := ← bool d.selection.development development
        peer := ← bool d.selection.peer peer
        optional := ← bool d.selection.optional optional }
      maxDepth := ← Json.fieldOr d.maxDepth (Json.nullable? asSize?) maxDepth
      includePatterns := ← texts d.includePatterns includes
      excludePatterns := ← texts d.excludePatterns excludes
      ignoredDirs := ← texts d.ignoredDirs ignored
      detectVulnerabilities := ← bool d.detectVulnerabilities detect
      suggestOptimizations := ← bool d.suggestOptimizations suggest
      riskyNamePatterns := ← texts d.riskyNamePatterns risky
      criticalNodes := ← texts d.criticalNodes critical
      maxConcurrentReads := ← Json.fieldOr d.maxConcurrentReads asSize? reads
      similarPrefixes := ← texts d.similarPrefixes starts
      similarSuffixes := ← texts d.similarSuffixes ends }
  | _ => none

/-- Reads the text of a configuration. -/
def ofText? (text : String) : Option Configuration :=
  (Json.read? text).bind ofJson?

end Configuration

end DepGraph

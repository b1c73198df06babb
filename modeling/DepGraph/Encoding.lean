import DepGraph.Analysis.Optimization
import DepGraph.Analysis.Vulnerability
import DepGraph.Error
import DepGraph.Export.Document
import DepGraph.Json.Record
import DepGraph.Source.Parsers

/-!
# JSON forms

The form in which results are handed to other programs: every field under its own name, a kind as
its name, and a missing value as `null`.
-/

namespace DepGraph

/-- The form of an import. -/
def Import.toJson (i : Import) : Json :=
  .fields [("specifier", .text i.specifier), ("kind", .text i.kind.name), ("line", .nat i.line)]

/-- The form of what a file imports and exports. -/
def ParsedFile.toJson (p : ParsedFile) : Json :=
  .fields [("imports", .array (p.imports.map Import.toJson)), ("exports", .texts p.exports)]

/-- The form of a package file. -/
def PackageFile.toJson (p : PackageFile) : Json :=
  .fields
    [("name", .ofOption .text p.name), ("version", .ofOption .text p.version),
      ("description", .ofOption .text p.description),
      ("dependencies", .ofOption .ofTextMap p.dependencies),
      ("devDependencies", .ofOption .ofTextMap p.devDependencies),
      ("peerDependencies", .ofOption .ofTextMap p.peerDependencies),
      ("optionalDependencies", .ofOption .ofTextMap p.optionalDependencies)]

namespace Manifest

/-- The names of the fields of a manifest. -/
def fieldNames : List String :=
  ["dependencies", "dev_dependencies", "peer_dependencies", "optional_dependencies"]

/-- Reads a manifest: an object with the classes, or the pairs of the production class. -/
def ofJson? : Json → Option Manifest
  | .array items => do
    let pairs ← items.mapM fun item => do
      match ← item.asTexts? with
      | [name, version] => some (name, version)
      | _ => none
    return ofPairs pairs
  | json => do
    let versions := Json.fieldOr ∅ Json.asTextMap?
    match ← json.record? fieldNames with
    | [production, development, peer, optional] =>
      return ⟨← versions production, ← versions development, ← versions peer, ← versions optional⟩
    | _ => none

/-- The form of a manifest. -/
def toJson (m : Manifest) : Json :=
  .fields
    [("dependencies", .ofTextMap m.production), ("dev_dependencies", .ofTextMap m.development),
      ("peer_dependencies", .ofTextMap m.peer), ("optional_dependencies", .ofTextMap m.optional)]

end Manifest

/-- The form of a configuration. -/
def Configuration.toJson (c : Configuration) : Json :=
  .fields
    [("include_dev_dependencies", .bool c.selection.development),
      ("include_peer_dependencies", .bool c.selection.peer),
      ("include_optional_dependencies", .bool c.selection.optional),
      ("max_depth", .ofOption .nat c.maxDepth),
      ("include_patterns", .texts c.includePatterns),
      ("exclude_patterns", .texts c.excludePatterns),
      ("ignored_dirs", .texts c.ignoredDirs),
      ("detect_vulnerabilities", .bool c.detectVulnerabilities),
      ("suggest_optimizations", .bool c.suggestOptimizations),
      ("risky_name_patterns", .texts c.riskyNamePatterns),
      ("critical_nodes", .texts c.criticalNodes),
      ("max_concurrent_reads", .nat c.maxConcurrentReads),
      ("similar_prefixes", .texts c.similarPrefixes),
      ("similar_suffixes", .texts c.similarSuffixes)]

/-- The form of an error about a file. There is none if the path is not text. -/
def FileError.toJson? (e : FileError) : Option Json :=
  e.path.text?.map fun path =>
    .fields [("path", .text path), ("kind", .text e.kind.name), ("message", .text e.message)]

/-- The form of a cycle. -/
def Cycle.toJson (c : Cycle) : Json :=
  .fields
    [("nodes", .texts c.members), ("length", .nat c.length), ("severity", .text c.severity.name),
      ("suggestions", .texts c.suggestions)]

/-- The form of a finding. -/
def Vulnerability.toJson (v : Vulnerability) : Json :=
  .fields
    [("node_id", .text v.nodeId), ("kind", .text v.kind.name), ("severity", .text v.severity.name),
      ("description", .text v.description), ("recommendation", .text v.recommendation)]

/-- The form of a suggestion. -/
def Optimization.toJson (o : Optimization) : Json :=
  .fields
    [("kind", .text o.kind.name), ("targets", .texts o.targets), ("impact", .text o.impact),
      ("effort", .text o.effort.name), ("benefit", .text o.benefit.name), ("steps", .texts o.steps)]

end DepGraph

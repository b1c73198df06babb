import DepGraph.Fault
import DepGraph.Json.Reader
import DepGraph.Json.Record
import DepGraph.Manifest.Basic
import DepGraph.Text.Blank

/-!
# Package files

A package file is a JSON record with the manifest of a package among other things. It is read,
checked, and turned into a manifest.

* `PackageFile.check_eq_none_iff`: what a package file has to satisfy.
-/

namespace DepGraph

/-- Why there is no manifest. -/
inductive ManifestError where
  | unreadable (fault : Fault)
  | malformed
  | invalid (reason : String)
  deriving Repr, DecidableEq

/-- What stands in a message for the place and the reason of a fault in JSON. -/
def Json.faultText : String := "<json error>"

/-- The wording of the error. -/
def ManifestError.message : ManifestError → String
  | .unreadable fault => s!"Failed to read file: {fault.message}"
  | .malformed => "Failed to parse JSON: " ++ Json.faultText
  | .invalid reason => s!"Invalid package.json: {reason}"

/-- What a package file says about its package and about the packages it needs. -/
structure PackageFile where
  name : Option String := none
  version : Option String := none
  description : Option String := none
  dependencies : Option Versions := none
  devDependencies : Option Versions := none
  peerDependencies : Option Versions := none
  optionalDependencies : Option Versions := none

namespace PackageFile

/-- The names of the fields, in order. -/
def fieldNames : List String :=
  ["name", "version", "description", "dependencies", "devDependencies", "peerDependencies",
    "optionalDependencies"]

/-- Reads the record. An array has to hold all fields. -/
def ofJson? (json : Json) : Option PackageFile := do
  if json.asArray?.any (·.length < fieldNames.length) then none
  let text := Json.fieldOr none (Json.nullable? Json.asText?)
  let versions := Json.fieldOr none (Json.nullable? Json.asTextMap?)
  match ← json.record? fieldNames with
  | [name, version, description, dependencies, development, peer, optional] =>
    return {
      name := ← text name
      version := ← text version
      description := ← text description
      dependencies := ← versions dependencies
      devDependencies := ← versions development
      peerDependencies := ← versions peer
      optionalDependencies := ← versions optional }
  | _ => none

/-- Reads the text of a package file. -/
def ofText? (text : String) : Option PackageFile :=
  (Json.read? text).bind ofJson?

/-- The classes that are there. -/
def classes (p : PackageFile) : List Versions :=
  [p.dependencies, p.devDependencies, p.peerDependencies, p.optionalDependencies].filterMap id

/-- The number of declarations. -/
def dependencyCount (p : PackageFile) : Nat :=
  p.classes.foldl (fun count versions => count + versions.size) 0

/-- Is anything declared? -/
def hasDependencies (p : PackageFile) : Bool :=
  p.dependencyCount > 0

/-- What is wrong with a package file. -/
inductive Defect where
  | nothingSaid
  | emptyVersion (name : String)
  deriving Repr, DecidableEq

/-- The wording of the defect. -/
def Defect.reason : Defect → String
  | .nothingSaid => "package.json has no name and no dependencies"
  | .emptyVersion name => s!"dependency '{name}' has an empty version"

/-- Is the version nothing but blanks? -/
def isBlankVersion (version : String) : Bool :=
  (Text.trim version.toList).isEmpty

/-- The first defect. -/
def check (p : PackageFile) : Option Defect :=
  if p.name.isNone && !p.hasDependencies then some .nothingSaid
  else
    ((p.classes.flatMap (·.toList)).find? fun entry => isBlankVersion entry.2).map fun entry =>
      .emptyVersion entry.1

theorem check_eq_none_iff (p : PackageFile) :
    p.check = none ↔
      (p.name.isSome ∨ p.hasDependencies = true) ∧
        ∀ versions ∈ p.classes, ∀ entry ∈ versions.toList, isBlankVersion entry.2 = false := by
  unfold check
  cases hname : p.name <;> cases hdeps : p.hasDependencies <;>
    simp [List.find?_eq_none]

/-- The manifest of the package. -/
def manifest (p : PackageFile) : Manifest where
  production := p.dependencies.getD ∅
  development := p.devDependencies.getD ∅
  peer := p.peerDependencies.getD ∅
  optional := p.optionalDependencies.getD ∅

/-- The manifest in a text, if it is a package file without defects. -/
def manifestOf (text : String) : Except ManifestError Manifest :=
  match ofText? text with
  | none => .error .malformed
  | some p =>
    match p.check with
    | some defect => .error (.invalid defect.reason)
    | none => .ok p.manifest

end PackageFile

end DepGraph

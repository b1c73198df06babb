import DepGraph.Manifest.Basic
import DepGraph.Resolve.Basic

/-!
# Declared packages

A script imports a package by its name. The package is known if a manifest declares it; the first of
several declarations gives the version.

* `firstVersions_getElem?`: the first declaration of a name gives its version.
-/

namespace DepGraph.DeclaredPackage

/-- The version of the first declaration of each name. -/
def firstVersions (dependencies : List Dependency) : Versions :=
  dependencies.foldl (fun versions d => versions.insertIfNew d.name d.version) ∅

/-- The package that an import of a script means. -/
def resolve (versions : Versions) (i : Import) (importer : Path) : Option Resolution :=
  if importer.isScript then do
    let name ← i.packageName
    let version ← versions[name]?
    return {
      id := Node.packageId name version
      name
      version := some version
      kind := .package
      source := Node.packageSource name version }
  else none

theorem foldl_insertIfNew_getElem? (name : String) :
    ∀ (dependencies : List Dependency) (versions : Versions),
      (dependencies.foldl (fun versions d => versions.insertIfNew d.name d.version) versions)[name]?
        = (versions[name]?).or ((dependencies.find? fun d => d.name == name).map (·.version))
  | [], versions => by simp
  | d :: rest, versions => by
    rw [List.foldl_cons, foldl_insertIfNew_getElem? name rest, Std.TreeMap.getElem?_insertIfNew]
    by_cases hname : d.name = name
    · subst hname
      cases h : versions[d.name]? with
      | none =>
        have : d.name ∉ versions := by
          rw [← Std.TreeMap.isSome_getElem?_iff_mem]
          simp [h]
        simp [this]
      | some version =>
        have : d.name ∈ versions := by
          rw [← Std.TreeMap.isSome_getElem?_iff_mem]
          simp [h]
        simp [this]
    · simp [hname]

theorem firstVersions_getElem? (dependencies : List Dependency) (name : String) :
    (firstVersions dependencies)[name]? =
      (dependencies.find? fun d => d.name == name).map (·.version) := by
  unfold firstVersions
  rw [foldl_insertIfNew_getElem?]
  simp

end DepGraph.DeclaredPackage

namespace DepGraph.Resolver

/-- The resolver for imports of declared packages. -/
def declared (dependencies : List Dependency) : Resolver :=
  let versions := DeclaredPackage.firstVersions dependencies
  { name := "package"
    resolve := fun _ i importer => DeclaredPackage.resolve versions i importer }

end DepGraph.Resolver

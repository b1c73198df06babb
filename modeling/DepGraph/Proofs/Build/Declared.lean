import DepGraph.Proofs.Build.Packages

/-!
# The resolver for packages and the graph of a manifest

Both make identifiers of what a manifest declares. The resolver keeps one version for each name,
that of the first declaration; the graph has a node for every declaration. So whatever the resolver
answers is a node, and a path below the name of a package leads to the same node as the name.

- `packageNameOf_append`: a path after the name of a package does not change the name.
- `Manifest.FirstDeclares`: the first class that counts and declares a name gives the version.
- `Build.declared_resolve_coherent`: what the resolver answers, when it does, and that it is a node.
-/

namespace DepGraph

open DepGraph.Graph

/-! ## The name of a package -/

/-- The path after a name begins with the slash that ends the name. -/
theorem takeWhile_append_slash (name path : List Char) :
    (name ++ '/' :: path).takeWhile (· != '/') = name.takeWhile (· != '/') := by
  induction name with
  | nil => rfl
  | cons c name ih => rw [List.cons_append, List.takeWhile_cons, List.takeWhile_cons, ih]

/-- A path after the name of a package does not change the name. Neither does it after a path below
the package. -/
theorem packageNameOf_append {specifier name : List Char} (h : packageNameOf specifier = some name)
    (path : List Char) : packageNameOf (specifier ++ '/' :: path) = some name := by
  cases specifier with
  | nil => simp [packageNameOf] at h
  | cons c rest =>
    by_cases hscoped : c = '@'
    · -- the scope is followed by a slash of its own
      subst hscoped
      simp only [packageNameOf] at h
      cases hrest : rest.dropWhile (· != '/') with
      | nil => simp [hrest] at h
      | cons slash inner =>
        have hdrop : (rest ++ '/' :: path).dropWhile (· != '/') =
            slash :: (inner ++ '/' :: path) := by
          rw [List.dropWhile_append, hrest]
          rfl
        rw [hrest] at h
        rw [← h, List.cons_append]
        simp only [packageNameOf, hdrop, takeWhile_append_slash]
    · have hpath : c ≠ '.' ∧ c ≠ '/' := by
        constructor <;> rintro rfl <;> simp [packageNameOf] at h
      have hname : ∀ l, packageNameOf (c :: l) = some ((c :: l).takeWhile (· != '/')) := fun l => by
        simp [packageNameOf, hscoped, hpath]
      rw [List.cons_append, hname, ← List.cons_append, takeWhile_append_slash, ← hname, h]

/-- The name of a package and the paths below it name the package. -/
theorem Import.packageName_of_names {i : Import} {name : String}
    (hname : packageNameOf name.toList = some name.toList)
    (h : i.specifier = name ∨ ∃ path, i.specifier = name ++ "/" ++ path) :
    i.packageName = some name := by
  have hlist : packageNameOf i.specifier.toList = some name.toList := by
    rcases h with hself | ⟨path, hpath⟩
    · rw [hself, hname]
    · have hsplit : (name ++ "/" ++ path).toList = name.toList ++ '/' :: path.toList := by simp
      rw [hpath, hsplit, packageNameOf_append hname]
  rw [Import.packageName, hlist, Option.map_some, String.ofList_toList]

/-! ## The first declaration of a name -/

namespace Manifest

variable {m : Manifest} {selection : Selection} {name version : String}

/-- The first of the classes that count and declare the name declares it with the version. -/
def FirstDeclares (m : Manifest) (selection : Selection) (name version : String) : Prop :=
  ∃ before c after, DependencyClass.all.filter selection.includes = before ++ c :: after ∧
    (m.versions c)[name]? = some version ∧ ∀ c' ∈ before, (m.versions c')[name]? = none

/-- No class that counts declares the name. -/
def Undeclared (m : Manifest) (selection : Selection) (name : String) : Prop :=
  ∀ c, selection.includes c = true → (m.versions c)[name]? = none

theorem declaredVersion?_eq_some_iff :
    m.declaredVersion? selection name = some version ↔ m.FirstDeclares selection name version :=
  List.findSome?_eq_some_iff

theorem declaredVersion?_eq_none_iff :
    m.declaredVersion? selection name = none ↔ m.Undeclared selection name := by
  have hall : ∀ c, c ∈ DependencyClass.all := fun c => by cases c <;> decide
  simp [declaredVersion?, Undeclared, List.findSome?_eq_none_iff, hall]

end Manifest

namespace Build

/-- **The resolver for packages and the graph of a manifest agree**, whichever classes count. What
the resolver answers, for any import of any file, is the package that the import names, in the
version of the first class that counts and declares it, and this is a node of the graph. If a name
is declared, then in every script the name and every path below it are resolved to one node. Where
the name of the package is declared by no class that counts, nothing is answered. -/
theorem declared_resolve_coherent (c : Configuration) (m : Manifest) (now : Timestamp) :
    (∀ scope i importer r,
      (Resolver.declared (m.select c.selection)).resolve scope i importer = some r →
        (ofManifest c m now).contains r.id = true ∧ importer.isScript = true ∧
        ∃ version, i.packageName = some r.name ∧ m.FirstDeclares c.selection r.name version ∧
          r.version = some version ∧ r.id = Node.packageId r.name version) ∧
    (∀ name, packageNameOf name.toList = some name.toList → ¬m.Undeclared c.selection name →
      ∃ r, (ofManifest c m now).contains r.id = true ∧
        ∀ scope importer, importer.isScript = true → ∀ i : Import,
          i.specifier = name ∨ (∃ path, i.specifier = name ++ "/" ++ path) →
            (Resolver.declared (m.select c.selection)).resolve scope i importer = some r) ∧
    ∀ scope i importer, (∀ name, i.packageName = some name → m.Undeclared c.selection name) →
      (Resolver.declared (m.select c.selection)).resolve scope i importer = none := by
  have hresolve : ∀ scope i importer r,
      (Resolver.declared (m.select c.selection)).resolve scope i importer = some r ↔
        importer.isScript = true ∧ ∃ name version, i.packageName = some name ∧
          m.declaredVersion? c.selection name = some version ∧
          DeclaredPackage.resolution name version = r :=
    fun _ _ _ _ => DeclaredPackage.resolve_eq_some_iff
  refine ⟨?answer, ?paths, ?nothing⟩
  case answer =>
    intro scope i importer r hr
    obtain ⟨hscript, name, version, hname, hversion, rfl⟩ := (hresolve ..).mp hr
    exact ⟨contains_ofManifest_of_declaredVersion? c m now hversion, hscript, version, hname,
      Manifest.declaredVersion?_eq_some_iff.mp hversion, rfl, rfl⟩
  case paths =>
    intro name hname hdeclared
    rw [← Manifest.declaredVersion?_eq_none_iff] at hdeclared
    obtain ⟨version, hversion⟩ := Option.ne_none_iff_exists'.mp hdeclared
    refine ⟨DeclaredPackage.resolution name version,
      contains_ofManifest_of_declaredVersion? c m now hversion, ?_⟩
    intro scope importer hscript i hi
    exact (hresolve ..).mpr
      ⟨hscript, name, version, Import.packageName_of_names hname hi, hversion, rfl⟩
  case nothing =>
    intro scope i importer hundeclared
    rw [Option.eq_none_iff_forall_ne_some]
    intro r hr
    obtain ⟨-, name, version, hname, hversion, -⟩ := (hresolve ..).mp hr
    rw [Manifest.declaredVersion?_eq_none_iff.mpr (hundeclared name hname)] at hversion
    exact absurd hversion nofun

/-- Two classes declare one package in different versions, and one of them a scoped package too. A
third class does not count. -/
def overlapping : Manifest where
  production := (∅ : Versions).insert "react" "18.2.0"
  development := ((∅ : Versions).insert "react" "17.0.0").insert "@scope/pkg" "1.0.0"
  peer := (∅ : Versions).insert "left" "3.0.0"

/-- A configuration in which the second of these classes counts. -/
def developing : Configuration :=
  { selection := { development := true } }

/-- A root without files. -/
def nowhere : Scope :=
  { root := .ofText "/", isFile := fun _ => false }

/-- The first version counts, a scope is part of the name, and packages of other classes are not
known. -/
theorem declared_resolve_coherent_overlapping :
    (∃ r, (ofManifest developing overlapping default).contains r.id = true ∧
      r.id = "react@18.2.0" ∧
      (Resolver.declared (overlapping.select developing.selection)).resolve nowhere
        ⟨"react", .static, 1⟩ (.ofText "index.tsx") = some r ∧
      (Resolver.declared (overlapping.select developing.selection)).resolve nowhere
        ⟨"react/jsx-runtime", .require, 2⟩ (.ofText "setup.mjs") = some r) ∧
    (∃ r, (ofManifest developing overlapping default).contains r.id = true ∧
      r.id = "@scope/pkg@1.0.0" ∧
      (Resolver.declared (overlapping.select developing.selection)).resolve nowhere
        ⟨"@scope/pkg//deep", .dynamic, 3⟩ (.ofText "index.tsx") = some r) ∧
    (Resolver.declared (overlapping.select developing.selection)).resolve nowhere
      ⟨"left/pad", .static, 4⟩ (.ofText "index.tsx") = none := by
  obtain ⟨hanswer, hpaths, hnothing⟩ := declared_resolve_coherent developing overlapping default
  have hid : ∀ (r : Resolution) (i : Import) (importer : Path) (name version : String),
      (Resolver.declared (overlapping.select developing.selection)).resolve nowhere i importer =
          some r → i.packageName = some name →
        overlapping.declaredVersion? developing.selection name = some version →
          r.id = Node.packageId name version := by
    intro r i importer name version hr hname hversion
    obtain ⟨-, -, version', hname', hfirst, -, hid⟩ := hanswer nowhere i importer r hr
    obtain rfl : r.name = name := Option.some.inj (hname'.symm.trans hname)
    rw [← Manifest.declaredVersion?_eq_some_iff, hversion] at hfirst
    rw [hid, Option.some.inj hfirst]
  have hreact : overlapping.declaredVersion? developing.selection "react" = some "18.2.0" := by
    decide +kernel
  have hscoped : overlapping.declaredVersion? developing.selection "@scope/pkg" = some "1.0.0" := by
    decide +kernel
  have hdeclared : ∀ {name version},
      overlapping.declaredVersion? developing.selection name = some version →
        ¬overlapping.Undeclared developing.selection name := fun h => by
    rw [← Manifest.declaredVersion?_eq_none_iff, h]
    exact nofun
  have hscript : (Path.ofText "index.tsx").isScript = true := by decide +kernel
  refine ⟨?_, ?_, ?_⟩
  · obtain ⟨r, hnode, hr⟩ := hpaths "react" (by decide +kernel) (hdeclared hreact)
    have hself := hr nowhere _ hscript ⟨"react", .static, 1⟩ (.inl rfl)
    have hpath := hr nowhere (.ofText "setup.mjs") (by decide +kernel)
      ⟨"react/jsx-runtime", .require, 2⟩ (.inr ⟨"jsx-runtime", by decide +kernel⟩)
    exact ⟨r, hnode, hid r _ _ _ _ hself (by decide +kernel) hreact, hself, hpath⟩
  · obtain ⟨r, hnode, hr⟩ := hpaths "@scope/pkg" (by decide +kernel) (hdeclared hscoped)
    have hpath := hr nowhere _ hscript ⟨"@scope/pkg//deep", .dynamic, 3⟩
      (.inr ⟨"/deep", by decide +kernel⟩)
    exact ⟨r, hnode, hid r _ _ _ _ hpath (by decide +kernel) hscoped, hpath⟩
  · refine hnothing nowhere _ _ fun name hname => ?_
    have hleft : Import.packageName ⟨"left/pad", .static, 4⟩ = some "left" := by decide +kernel
    rw [← Option.some.inj (hleft.symm.trans hname), ← Manifest.declaredVersion?_eq_none_iff]
    decide +kernel

end Build

end DepGraph

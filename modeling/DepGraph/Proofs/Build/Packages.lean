import DepGraph.Analysis.Analyzer
import DepGraph.Proofs.Build.Meaning

/-!
# Scripts that import declared packages

In a project the scripts can also import the packages of a manifest. The resolver for them comes
last, and it knows only what no other resolver takes for a file, so nothing but edges to packages
is added to what the sources of the directory alone would give.

- `Manifest.declaredVersion?`: the version that counts for a name.
- `firstVersions_select_getElem?`: the resolver knows this version.
- `resolve_standard_of_packageName`: a script finds no file under the name of a package.
- `Import.MeansPackage`, `Plan.ImportsPackage`: a script imports a declared package.
- `DeclaredPackage.resolve_eq_some_iff`: what the import of a declared package stands for.
- `Plan.exists_mem_targetsOf_project_iff`: what the files of a project import.
- `node?_ofManifest`: the graph of a manifest has a node for every declared package.
-/

namespace DepGraph

open DepGraph.Graph Run

/-! ## The version of a package -/

/-- The version of a package in the first of the classes that count and declare it. -/
def Manifest.declaredVersion? (m : Manifest) (selection : Selection) (name : String) :
    Option String :=
  (DependencyClass.all.filter selection.includes).findSome? fun c => (m.versions c)[name]?

/-- In a class, a package is declared with its version. -/
theorem Manifest.find?_declared (m : Manifest) (c : DependencyClass) (name : String) :
    ((m.declared c).find? (·.name == name)).map (·.version) = (m.versions c)[name]? := by
  rw [declared, List.find?_map, Option.map_map]
  show ((m.versions c).toList.find? (·.1 == name)).map (·.2) = _
  cases hfind : (m.versions c).toList.find? (·.1 == name) with
  | some entry =>
    obtain rfl : entry.1 = name := by simpa using List.find?_some hfind
    exact (Std.TreeMap.mem_toList_iff_getElem?_eq_some.mp (List.mem_of_find?_eq_some hfind)).symm
  | none =>
    cases hversion : (m.versions c)[name]? with
    | none => rfl
    | some version =>
      have hmem := Std.TreeMap.mem_toList_iff_getElem?_eq_some.mpr hversion
      simpa using List.find?_eq_none.mp hfind _ hmem

theorem DeclaredPackage.firstVersions_select_getElem? (m : Manifest) (selection : Selection)
    (name : String) :
    (firstVersions (m.select selection))[name]? = m.declaredVersion? selection name := by
  rw [firstVersions_getElem?, Manifest.select, List.find?_flatMap, List.map_findSome?]
  exact congrArg (List.findSome? · _) (funext fun c => m.find?_declared c name)

/-- A declared version is the version of a selected declaration. -/
theorem Manifest.exists_mem_select_of_declaredVersion? {m : Manifest} {selection : Selection}
    {name version : String} (h : m.declaredVersion? selection name = some version) :
    ∃ d ∈ m.select selection, d.name = name ∧ d.version = version := by
  rw [← DeclaredPackage.firstVersions_select_getElem?, DeclaredPackage.firstVersions_getElem?] at h
  obtain ⟨d, hfind, hversion⟩ := Option.map_eq_some_iff.mp h
  exact ⟨d, List.mem_of_find?_eq_some hfind, by simpa using List.find?_some hfind, hversion⟩

/-! ## Resolving -/

/-- A script is no Python source. -/
theorem isSource_of_isScript {importer : Path} (h : importer.isScript = true) :
    PythonModule.isSource importer = false := by
  unfold PythonModule.isSource
  rw [Bool.eq_false_iff]
  intro hsource
  unfold Path.isScript at h
  rcases Bool.or_eq_true_iff.mp hsource with hpy | hpy
  · rw [beq_iff_eq.mp hpy] at h
    exact absurd h (by decide +kernel)
  · rw [beq_iff_eq.mp hpy] at h
    exact absurd h (by decide +kernel)

/-- A resolver with a new name is asked after all others. -/
theorem ResolverRegistry.resolve_register {r : ResolverRegistry} {resolver : Resolver}
    (hnew : r.names.contains resolver.name = false) (scope : Scope) (i : Import)
    (importer : Path) :
    (r.register resolver).resolve scope i importer =
      (r.resolve scope i importer).or (resolver.resolve scope i importer) := by
  unfold register
  rw [if_neg (by rw [hnew]; exact Bool.false_ne_true), resolve, List.findSome?_append,
    List.findSome?_singleton]
  rfl

theorem resolve_standard (scope : Scope) (i : Import) (importer : Path) :
    ResolverRegistry.standard.resolve scope i importer =
      (RelativeImport.resolve scope i importer).or (PythonModule.resolve scope i importer) := by
  have hpython : (ResolverRegistry.empty.register .relative).names.contains "python" = false := by
    decide +kernel
  rw [ResolverRegistry.standard, ResolverRegistry.resolve_register hpython,
    ResolverRegistry.resolve_register rfl]
  rfl

/-- A script finds no file under the name of a package. -/
theorem resolve_standard_of_packageName {i : Import} {importer : Path} {name : String}
    (hscript : importer.isScript = true) (hname : i.packageName = some name) (scope : Scope) :
    ResolverRegistry.standard.resolve scope i importer = none := by
  obtain ⟨name, hname, -⟩ := Option.map_eq_some_iff.mp hname
  have hrelative : i.isRelative = false := not_isRelative_of_packageName hname
  rw [resolve_standard, RelativeImport.resolve_eq_none_of_not_relative hrelative,
    PythonModule.resolve, isSource_of_isScript hscript]
  rfl

/-- The import means a package: a script holds it, and the manifest declares the name. -/
def Import.MeansPackage (i : Import) (m : Manifest) (selection : Selection) (importer : Path)
    (id : String) : Prop :=
  importer.isScript = true ∧ ∃ name version, i.packageName = some name ∧
    m.declaredVersion? selection name = some version ∧ Node.packageId name version = id

/-- What the import of a package stands for. -/
def DeclaredPackage.resolution (name version : String) : Resolution where
  id := Node.packageId name version
  name
  version := some version
  kind := .package
  source := Node.packageSource name version

/-- What an import is resolved to: the package that it names, if a script holds it and the package is
declared. -/
theorem DeclaredPackage.resolve_eq_some_iff {m : Manifest} {selection : Selection} {i : Import}
    {importer : Path} {r : Resolution} :
    resolve (firstVersions (m.select selection)) i importer = some r ↔
      importer.isScript = true ∧ ∃ name version, i.packageName = some name ∧
        m.declaredVersion? selection name = some version ∧ resolution name version = r := by
  unfold resolve
  cases importer.isScript with
  | false => simp
  | true =>
    simp only [if_true, Option.bind_eq_bind, Option.bind_eq_some_iff, true_and,
      firstVersions_select_getElem?]
    constructor
    · rintro ⟨name, hname, version, hversion, hr⟩
      exact ⟨name, version, hname, hversion, Option.some.inj hr⟩
    · rintro ⟨name, version, hname, hversion, hr⟩
      exact ⟨name, hname, version, hversion, congrArg some hr⟩

/-- What a declared package is resolved to. -/
theorem DeclaredPackage.exists_resolve_iff {m : Manifest} {selection : Selection} {i : Import}
    {importer : Path} {id : String} :
    (∃ target, resolve (firstVersions (m.select selection)) i importer = some target ∧
      target.id = id) ↔ i.MeansPackage m selection importer id := by
  simp only [resolve_eq_some_iff, Import.MeansPackage]
  constructor
  · rintro ⟨_, ⟨hscript, name, version, hname, hversion, rfl⟩, hid⟩
    exact ⟨hscript, name, version, hname, hversion, hid⟩
  · rintro ⟨hscript, name, version, hname, hversion, hid⟩
    exact ⟨_, ⟨hscript, name, version, hname, hversion, rfl⟩, hid⟩

namespace Build

/-! ## The packages themselves -/

section Manifest

variable (c : Configuration) (m : Manifest) (now : Timestamp)

/-- The node of a package is that of its first declaration, whenever the graph is made. -/
theorem node?_ofManifest (id : String) :
    (ofManifest c m now).node? id =
      ((m.select c.selection).map declaredNode).find? (·.id == id) := by
  have hisolated : Node.isolated ∘ declaredNode = declaredNode := rfl
  rw [ofManifest_eq_foldl, node?_foldl_addNode, List.find?_map, Option.map_map, hisolated]
  rfl

theorem contains_ofManifest_congr (now' : Timestamp) (id : String) :
    (ofManifest c m now).contains id = (ofManifest c m now').contains id := by
  rw [contains_eq_isSome_node?, contains_eq_isSome_node?, node?_ofManifest, node?_ofManifest]

theorem edges_ofManifest : (ofManifest c m now).edges = #[] := by
  rw [ofManifest_eq_foldl, edges_foldl_addNode]

/-- What a script can import is a node. -/
theorem contains_ofManifest_of_declaredVersion? {name version : String}
    (h : m.declaredVersion? c.selection name = some version) :
    (ofManifest c m now).contains (Node.packageId name version) = true := by
  obtain ⟨d, hd, rfl, rfl⟩ := Manifest.exists_mem_select_of_declaredVersion? h
  rw [ofManifest_eq_foldl, contains_foldl_addNode, Bool.or_eq_true, List.contains_iff_mem,
    List.map_map]
  exact .inr (List.mem_map.mpr ⟨d, hd, rfl⟩)

end Manifest

/-! ## The imports of a project -/

/-- The file can be parsed, and one of its imports means a package. -/
def Plan.ImportsPackage (p : Plan) (files : FileSystem) (m : Manifest) (f : SourceFile)
    (id : String) : Prop :=
  ∃ parsed, p.parsed? files f = some parsed ∧ ∃ i ∈ parsed.imports,
    i.MeansPackage m p.configuration.selection (f.path p.rootPath) id

section Project

variable {a : Analyzer} (htools : a.tools = {}) {m : Manifest}

include htools

/-- In a project, a declared package is what an import means that means no file. -/
theorem exists_resolve_projectTools_iff {scope : Scope} {i : Import} {importer : Path}
    {id : String} :
    (∃ target, (a.projectTools m).resolvers.resolve scope i importer = some target ∧
        target.id = id) ↔
      (∃ target, a.tools.resolvers.resolve scope i importer = some target ∧ target.id = id) ∨
        i.MeansPackage m a.configuration.selection importer id := by
  have hnew : ResolverRegistry.standard.names.contains "package" = false := by decide +kernel
  have hresolve : (a.projectTools m).resolvers.resolve scope i importer =
      (ResolverRegistry.standard.resolve scope i importer).or (DeclaredPackage.resolve
        (DeclaredPackage.firstVersions (m.select a.configuration.selection)) i importer) := by
    rw [Analyzer.projectTools, htools]
    exact ResolverRegistry.resolve_register hnew scope i importer
  rw [hresolve, htools, ← DeclaredPackage.exists_resolve_iff]
  constructor
  · rintro ⟨target, htarget, hid⟩
    rcases Option.or_eq_some_iff.mp htarget with hfile | ⟨-, hpackage⟩
    · exact .inl ⟨target, hfile, hid⟩
    · exact .inr ⟨target, hpackage, hid⟩
  · rintro (⟨target, hfile, hid⟩ | ⟨target, hpackage, hid⟩)
    · exact ⟨target, Option.or_eq_some_iff.mpr (.inl hfile), hid⟩
    · -- a script that means a package means no file
      obtain ⟨hscript, name, _, hname, -⟩ :=
        DeclaredPackage.exists_resolve_iff.mp ⟨target, hpackage, hid⟩
      have hnone := resolve_standard_of_packageName hscript hname scope
      exact ⟨target, Option.or_eq_some_iff.mpr (.inr ⟨hnone, hpackage⟩), hid⟩

/-- In a project, a file imports what it imports anyway, and packages. -/
theorem Plan.exists_mem_targetsOf_project_iff {place : List FileName} {files : FileSystem}
    {f : SourceFile} {id : String} :
    (∃ target ∈ Plan.targetsOf ⟨a.configuration, a.projectTools m, place⟩ files f,
        target.1.id = id) ↔
      (∃ target ∈ Plan.targetsOf ⟨a.configuration, a.tools, place⟩ files f, target.1.id = id) ∨
        Plan.ImportsPackage ⟨a.configuration, a.tools, place⟩ files m f id := by
  have hparsed : Plan.parsed? ⟨a.configuration, a.projectTools m, place⟩ files f =
      Plan.parsed? ⟨a.configuration, a.tools, place⟩ files f := rfl
  rw [exists_mem_targetsOf_iff, exists_mem_targetsOf_iff, hparsed, ImportsPackage]
  simp only [exists_resolve_projectTools_iff htools, and_or_left, exists_or]
  -- the plans differ in nothing but their resolvers
  exact Iff.rfl

section Grown

variable {place : List FileName} {files : FileSystem} {sources : List SourceFile} {b b' : Build}
  (h : Plan.Grown ⟨a.configuration, a.tools, place⟩ files sources b)
  (h' : Plan.Grown ⟨a.configuration, a.projectTools m, place⟩ files sources b')

include h h'

theorem contains_project_iff {id : String} :
    b'.graph.contains id = true ↔ b.graph.contains id = true ∨
      ∃ f ∈ sources, Plan.ImportsPackage ⟨a.configuration, a.tools, place⟩ files m f id := by
  rw [h'.contains_iff, h.contains_iff]
  simp only [Plan.exists_mem_targetsOf_project_iff htools, ← or_assoc, and_or_left, exists_or]

theorem mem_edgeKeys_project_iff {key : EdgeKey} :
    key ∈ b'.graph.edgeKeys ↔ key ∈ b.graph.edgeKeys ∨ ∃ f ∈ sources, ∃ id,
      Plan.ImportsPackage ⟨a.configuration, a.tools, place⟩ files m f id ∧
        key = ⟨f.id, id, .imports⟩ := by
  rw [h'.mem_edgeKeys_iff, h.mem_edgeKeys_iff]
  simp only [Plan.exists_mem_targetsOf_project_iff htools, or_and_right, and_or_left, exists_or]

/-- With the manifest, the packages that are imported are nodes anyway. -/
theorem contains_merge_project_iff {now : Timestamp} {id : String} :
    ((ofManifest a.configuration m now).merge b'.graph).contains id = true ↔
      (ofManifest a.configuration m now).contains id = true ∨ b.graph.contains id = true := by
  rw [contains_merge _ h'.fresh.toConsistent, Bool.or_eq_true, contains_project_iff htools h h']
  constructor
  · rintro (hpackage | hfile | ⟨f, -, parsed, -, i, -, -, name, version, -, hversion, rfl⟩)
    · exact .inl hpackage
    · exact .inr hfile
    · exact .inl (contains_ofManifest_of_declaredVersion? a.configuration m now hversion)
  · rintro (hpackage | hfile)
    · exact .inl hpackage
    · exact .inr (.inl hfile)

theorem mem_edgeKeys_merge_project_iff {now : Timestamp} {key : EdgeKey} :
    key ∈ ((ofManifest a.configuration m now).merge b'.graph).edgeKeys ↔
      key ∈ b.graph.edgeKeys ∨ ∃ f ∈ sources, ∃ id,
        Plan.ImportsPackage ⟨a.configuration, a.tools, place⟩ files m f id ∧
          key = ⟨f.id, id, .imports⟩ := by
  have hempty : key ∉ (ofManifest a.configuration m now).edgeKeys := by
    rw [Graph.mem_edgeKeys_iff, edges_ofManifest]
    exact List.not_mem_nil
  rw [mem_edgeKeys_merge_iff (fresh_ofManifest ..).toConsistent h'.fresh.toConsistent,
    mem_edgeKeys_project_iff htools h h']
  exact or_iff_right hempty

end Grown

end Project

/-! ## Files are read all the same -/

/-- What is known of the files apart from the graph. -/
structure SameFiles (b b' : Build) : Prop where
  filesAnalyzed_eq : b.filesAnalyzed = b'.filesAnalyzed
  fileErrors_eq : b.fileErrors = b'.fileErrors

/-- Whatever imports stand for, the same files are read and parsed. -/
theorem sameFiles_after {tools tools' : Toolbox} (hparsers : tools.parsers = tools'.parsers)
    (c : Configuration) (place : List FileName) (files : FileSystem) (sources : List SourceFile)
    {b b' : Build} (h : SameFiles b b') :
    SameFiles (Plan.after ⟨c, tools, place⟩ files sources b)
      (Plan.after ⟨c, tools', place⟩ files sources b') where
  filesAnalyzed_eq := by
    rw [Plan.filesAnalyzed_after, Plan.filesAnalyzed_after, h.filesAnalyzed_eq]
    rfl
  fileErrors_eq := by
    have herrors : Plan.errorOf? ⟨c, tools, place⟩ files = Plan.errorOf? ⟨c, tools', place⟩ files := by
      funext f
      unfold Plan.errorOf?
      dsimp only
      rw [hparsers]
      rfl
    rw [← Array.toList_inj, Plan.toList_fileErrors_after, Plan.toList_fileErrors_after,
      h.fileErrors_eq, herrors]

end Build

end DepGraph

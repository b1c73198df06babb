import DepGraph.Resolve.Basic

/-!
# Relative imports of scripts

A script imports another file by a path that starts from its own directory. The path may leave out
the extension, name the file that a compiler makes of a source, or name a directory with an index.

* `resolve_eq_none_of_not_relative`: other imports are left alone.
-/

namespace DepGraph.RelativeImport

/-- The extensions to try, in order. -/
def extensions : List String :=
  ["ts", "tsx", "js", "jsx", "mjs", "cjs"]

/-- The extensions of the sources from which a compiler makes a file with the given one. -/
def sourceExtensions : Option String → List String
  | some "js" => ["ts", "tsx"]
  | some "jsx" => ["tsx"]
  | some "mjs" => ["mts"]
  | some "cjs" => ["cts"]
  | _ => []

/-- The files that a path may stand for, in order: the path as it is written, with an extension
added, with its extension replaced, and the index of the directory. -/
def candidates (base : Path) : List Path :=
  [base] ++ extensions.map (fun e => base.withSuffix ("." ++ e)) ++
    (sourceExtensions base.extension?).map base.withExtension ++
    extensions.map fun e => base.join (.ofText ("index." ++ e))

/-- The path that a specifier means in a file. -/
def target? (specifier : String) (importer : Path) : Option Path :=
  importer.parent?.map fun directory => (directory.join (.ofText specifier)).normalize

/-- The file that an import of a script means. -/
def resolve (scope : Scope) (i : Import) (importer : Path) : Option Resolution :=
  if i.isRelative && importer.isScript then
    match target? i.specifier importer with
    | some base => if base.startsWith scope.root then scope.firstFile (candidates base) else none
    | none => none
  else none

theorem resolve_eq_none_of_not_relative {i : Import} (h : i.isRelative = false) (scope : Scope)
    (importer : Path) : resolve scope i importer = none := by
  simp [resolve, h]

end DepGraph.RelativeImport

namespace DepGraph.Resolver

/-- The resolver for relative imports of scripts. -/
def relative : Resolver where
  name := "relative"
  resolve := RelativeImport.resolve

end DepGraph.Resolver

import DepGraph.Resolve.Basic
import DepGraph.Text.Pieces

/-!
# Python modules

A Python source imports a module by a dotted name. Dots in front lead to the package of the file and
up from there; without them the name starts at the root.

* `baseDirectory?_of_no_dots`: a name without dots in front starts at the root.
-/

namespace DepGraph.PythonModule

open DepGraph.Text

/-- Is the file a Python source? -/
def isSource (p : Path) : Bool :=
  p.extension? == some "py" || p.extension? == some "pyi"

/-- The directory so many steps up. -/
def ancestor? : Nat → Path → Option Path
  | 0, p => some p
  | n + 1, p => p.parent?.bind (ancestor? n)

/-- The directory at which a name with so many dots in front starts. -/
def baseDirectory? (dots : Nat) (importer root : Path) : Option Path :=
  match dots with
  | 0 => some root
  | dots + 1 => importer.parent?.bind (ancestor? dots)

/-- The path that a dotted name means in a file. -/
def target? (specifier : String) (importer root : Path) : Option Path :=
  let dots := specifier.toList.takeWhile (· == '.')
  let name := specifier.toList.dropWhile (· == '.')
  if name.isEmpty then none
  else
    (baseDirectory? dots.length importer root).map fun base =>
      ((splitAt (· == '.') name).foldl
        (fun path segment => path.join (.ofText (String.ofList segment))) base).normalize

/-- The files that a module may be: a source file, or the package in a directory. -/
def candidates (target : Path) : List Path :=
  [target.withExtension "py", target.join (.ofText "__init__.py")]

/-- The file that an import of a Python source means. -/
def resolve (scope : Scope) (i : Import) (importer : Path) : Option Resolution :=
  if isSource importer then
    match target? i.specifier importer scope.root with
    | some target =>
      if target.startsWith scope.root then scope.firstFile (candidates target) else none
    | none => none
  else none

theorem baseDirectory?_of_no_dots (importer root : Path) :
    baseDirectory? 0 importer root = some root := rfl

end DepGraph.PythonModule

namespace DepGraph.Resolver

/-- The resolver for imports of Python sources. -/
def python : Resolver where
  name := "python"
  resolve := PythonModule.resolve

end DepGraph.Resolver

import DepGraph.Graph.Node
import DepGraph.Path
import DepGraph.Source.Import
import DepGraph.Text.LowerCase

/-!
# Resolving imports

A resolver says which node an import stands for, or that it does not know. It sees the file that
holds the import and the scope of the search: the root directory, and which paths lead to files.

* `relativeId?_of_file`: a resolved file has the identifier of its path below the root.
-/

namespace DepGraph

/-- What an import stands for. -/
structure Resolution where
  id : String
  name : String
  version : Option String := none
  kind : NodeKind
  source : String
  /-- The path of a file. -/
  path : Option Path := none
  deriving DecidableEq

namespace Resolution

/-- The node for what an import stands for. -/
def node (r : Resolution) : Node where
  id := r.id
  name := r.name
  version := r.version
  kind := r.kind
  source := r.source

/-- A file below the root. -/
def file (root path : Path) : Option Resolution :=
  match root.relativeId? path, path.fileName? with
  | some id, some name =>
    some { id, name := name.text, kind := .file, source := path.text, path := some path }
  | _, _ => none

theorem relativeId?_of_file {root path : Path} {r : Resolution} (h : file root path = some r) :
    root.relativeId? path = some r.id ∧ r.path = some path := by
  unfold file at h
  split at h
  · next id name hid hname =>
    cases h
    exact ⟨hid, rfl⟩
  · simp at h

end Resolution

/-- The scope of a search. -/
structure Scope where
  root : Path
  /-- Does the path lead to a file? -/
  isFile : Path → Bool

namespace Scope

/-- The resolution to the first of the candidates that is a file. -/
def firstFile (scope : Scope) (candidates : List Path) : Option Resolution :=
  (candidates.find? scope.isFile).bind (Resolution.file scope.root)

theorem isFile_of_firstFile {scope : Scope} {candidates : List Path} {r : Resolution}
    (h : scope.firstFile candidates = some r) :
    ∃ path ∈ candidates, scope.isFile path = true ∧ r.path = some path := by
  obtain ⟨path, hfind, hfile⟩ := Option.bind_eq_some_iff.mp h
  exact ⟨path, List.mem_of_find?_eq_some hfind, List.find?_some hfind,
    (Resolution.relativeId?_of_file hfile).2⟩

end Scope

/-- A resolver of imports. -/
structure Resolver where
  name : String
  resolve : Scope → Import → (importer : Path) → Option Resolution

/-- Is the file a script? -/
def Path.isScript (p : Path) : Bool :=
  p.extension?.any fun extension =>
    ["js", "jsx", "mjs", "cjs", "ts", "tsx", "mts", "cts"].contains (Text.loweredAscii extension)

end DepGraph

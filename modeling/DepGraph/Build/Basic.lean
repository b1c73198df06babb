import DepGraph.Files.Discovery
import DepGraph.Files.Reading
import DepGraph.Graph.Basic
import DepGraph.Resolve.Registry
import DepGraph.Run.Progress
import DepGraph.Source.Parsers

/-!
# Building graphs

The graph of a source tree grows file by file. A file becomes a node, and an edge leads from it to
whatever one of its imports stands for. What is wrong with a single file is kept beside the graph.

* `filesAnalyzed_process`: the files that were read are counted.
* `fileErrors_process`: a file that fails adds one error.
-/

namespace DepGraph

/-- The packages of a manifest as a graph without edges. -/
def Graph.ofManifest (c : Configuration) (m : Manifest) (now : Timestamp) : Graph :=
  (m.select c.selection).foldl (fun g d =>
    g.addNode { Node.package d.name d.version with dependencyClass := some d.dependencyClass })
    { createdAt := now }

/-- What the sources are read with. -/
structure Toolbox where
  parsers : ParserRegistry := .standard
  resolvers : ResolverRegistry := .standard

/-- The path of a source file, given that of the root of its tree. -/
def SourceFile.path (root : Path) (f : SourceFile) : Path :=
  ⟨root.start, root.parts ++ f.steps.map .name⟩

/-- The node of a source file that nothing is known of yet. -/
def SourceFile.node (root : Path) (f : SourceFile) : Node where
  id := f.id
  name := ((f.steps.getLast?).map FileName.text).getD f.id
  kind := .file
  source := (f.path root).text

/-- The part of a graph that is done, and what went wrong on the way. -/
structure Build where
  graph : Graph := {}
  filesAnalyzed : Nat := 0
  fileErrors : Array FileError := #[]

/-- Adds what an import of a node stands for, and the edge to it. -/
def Graph.addImport (g : Graph) (id : String) (target : Resolution) (dynamic : Bool) : Graph :=
  (g.addNode target.node).addEdge { source := id, target := target.id, kind := .imports, dynamic }

namespace Build

/-- What the imports of a file stand for, as far as they can be resolved, in order. The flag tells
whether the import is followed only at run time. -/
def targets (tools : Toolbox) (scope : Scope) (importer : Path) (imports : List Import) :
    List (Resolution × Bool) :=
  imports.filterMap fun i =>
    (tools.resolvers.resolve scope i importer).map fun target => (target, i.kind.isDynamic)

/-- Passes over a file. -/
def fail (b : Build) (e : FileError) : Build × Event :=
  ({ b with fileErrors := b.fileErrors.push e }, .failed e.path e.message)

/-- Adds a source file whose text was read. -/
def addSource (tools : Toolbox) (scope : Scope) (f : SourceFile) (source : SourceText) (b : Build) :
    Build × Event :=
  let path := f.path scope.root
  let graph := b.graph.modifyNode f.id fun node =>
    { node with size := some source.size, lastModified := source.modified }
  let b := { b with graph, filesAnalyzed := b.filesAnalyzed + 1 }
  match tools.parsers.parserOf? path with
  | none => (b, .processed path.written 0)
  | some parser =>
    match parser.parse path source.text with
    | .error e => b.fail ⟨path.written, .parseFailed, e.message⟩
    | .ok parsed =>
      let linked := (targets tools scope path parsed.imports).foldl
        (fun g target => g.addImport f.id target.1 target.2) graph
      ({ b with graph := linked }, .processed path.written (linked.edgeCount - graph.edgeCount))

/-- Adds a source file, given what came of reading it. Whether or not it could be read, it becomes a
node. -/
def process (tools : Toolbox) (scope : Scope) (f : SourceFile)
    (content : Except FileError SourceText) (b : Build) : Build × Event :=
  let b := { b with graph := b.graph.addNode (f.node scope.root) }
  match content with
  | .error e => b.fail e
  | .ok source => b.addSource tools scope f source

/-! ## Lemmas -/

theorem filesAnalyzed_addSource (tools : Toolbox) (scope : Scope) (f : SourceFile)
    (source : SourceText) (b : Build) :
    (b.addSource tools scope f source).1.filesAnalyzed = b.filesAnalyzed + 1 := by
  unfold addSource
  dsimp only
  split
  · rfl
  · split <;> rfl

theorem filesAnalyzed_process (tools : Toolbox) (scope : Scope) (f : SourceFile)
    (content : Except FileError SourceText) (b : Build) :
    (b.process tools scope f content).1.filesAnalyzed =
      b.filesAnalyzed + if content.isOk then 1 else 0 := by
  cases content with
  | error => rfl
  | ok => exact filesAnalyzed_addSource ..

theorem fileErrors_process (tools : Toolbox) (scope : Scope) (f : SourceFile)
    (content : Except FileError SourceText) (b : Build) :
    match (b.process tools scope f content).2 with
    | .failed path message => ∃ e : FileError, e.path = path ∧ e.message = message ∧
        (b.process tools scope f content).1.fileErrors = b.fileErrors.push e
    | _ => (b.process tools scope f content).1.fileErrors = b.fileErrors := by
  cases content with
  | error e => exact ⟨e, rfl, rfl, rfl⟩
  | ok source =>
    simp only [process, addSource]
    cases tools.parsers.parserOf? (f.path scope.root) with
    | none => rfl
    | some parser =>
      dsimp only
      cases parser.parse (f.path scope.root) source.text with
      | error e => exact ⟨_, rfl, rfl, rfl⟩
      | ok => rfl

end Build

end DepGraph

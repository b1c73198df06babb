import DepGraph.Manifest.Basic
import DepGraph.Time.Timestamp

/-!
# Nodes and edges

A node is a unit of code: a package, a file or something else that others depend on. An edge points
from the unit that depends to the unit it depends on.
-/

namespace DepGraph

/-- What a node stands for. -/
inductive NodeKind where
  /-- What a manifest declares. -/
  | package
  | module
  /-- A file of a source tree. -/
  | file
  | function
  | service
  | resource
  deriving Repr, DecidableEq

namespace NodeKind

/-- The written form of the kind. -/
def name : NodeKind → String
  | .package => "package"
  | .module => "module"
  | .file => "file"
  | .function => "function"
  | .service => "service"
  | .resource => "resource"

/-- All kinds. -/
def all : List NodeKind :=
  [.package, .module, .file, .function, .service, .resource]

/-- The kind with the given written form. -/
def ofName? (name : String) : Option NodeKind :=
  all.find? (·.name == name)

end NodeKind

/-- What an edge records. -/
inductive EdgeKind where
  | imports
  | requires
  | uses
  | extends
  | implements
  | calls
  | depends
  deriving Repr, DecidableEq

namespace EdgeKind

/-- The written form of the kind. -/
def name : EdgeKind → String
  | .imports => "imports"
  | .requires => "requires"
  | .uses => "uses"
  | .extends => "extends"
  | .implements => "implements"
  | .calls => "calls"
  | .depends => "depends"

/-- The place of the kind in the order of kinds. -/
def rank : EdgeKind → Nat
  | .imports => 0
  | .requires => 1
  | .uses => 2
  | .extends => 3
  | .implements => 4
  | .calls => 5
  | .depends => 6

/-- All kinds, in order. -/
def all : List EdgeKind :=
  [.imports, .requires, .uses, .extends, .implements, .calls, .depends]

/-- The kind with the given written form. -/
def ofName? (name : String) : Option EdgeKind :=
  all.find? (·.name == name)

end EdgeKind

/-- A node. It names its neighbours in the order in which they were first seen; `cyclic`, `critical`
and `depth` are the findings of an analysis. -/
structure Node where
  id : String
  name : String
  version : Option String := none
  kind : NodeKind
  /-- Where the unit comes from. -/
  source : String
  dependencies : Array String := #[]
  dependents : Array String := #[]
  /-- The size in bytes. -/
  size : Option Nat := none
  lastModified : Option Timestamp := none
  /-- The class in which a manifest declares the package. -/
  dependencyClass : Option DependencyClass := none
  cyclic : Bool := false
  critical : Bool := false
  depth : Nat := 0
  deriving Repr, DecidableEq

namespace Node

/-- The identifier of a package. -/
def packageId (name version : String) : String :=
  s!"{name}@{version}"

/-- Where a package comes from. -/
def packageSource (name version : String) : String :=
  s!"npm:{name}@{version}"

/-- A node for a package. -/
def package (name version : String) : Node where
  id := packageId name version
  name
  version
  kind := .package
  source := packageSource name version

/-- Has the node no neighbours? -/
def isOrphan (n : Node) : Bool :=
  n.dependencies.isEmpty && n.dependents.isEmpty

/-- Has the node dependents and no dependencies? -/
def isLeaf (n : Node) : Bool :=
  n.dependencies.isEmpty && !n.dependents.isEmpty

/-- The node without its neighbours. -/
def isolated (n : Node) : Node :=
  { n with dependencies := #[], dependents := #[] }

/-- The node with one more dependency, which it names once. -/
def addDependency (n : Node) (id : String) : Node :=
  if n.dependencies.contains id then n else { n with dependencies := n.dependencies.push id }

/-- The node with one more dependent, which it names once. -/
def addDependent (n : Node) (id : String) : Node :=
  if n.dependents.contains id then n else { n with dependents := n.dependents.push id }

@[simp] theorem id_addDependency (n : Node) (id : String) : (n.addDependency id).id = n.id := by
  unfold addDependency; split <;> rfl

@[simp] theorem id_addDependent (n : Node) (id : String) : (n.addDependent id).id = n.id := by
  unfold addDependent; split <;> rfl

theorem mem_addDependency (n : Node) (id other : String) :
    other ∈ (n.addDependency id).dependencies ↔ other ∈ n.dependencies ∨ other = id := by
  unfold addDependency
  split
  · next h => exact ⟨.inl, fun h' => h'.elim (fun m => m) fun e => e ▸ Array.contains_iff_mem.mp h⟩
  · simp

end Node

/-- The identity of an edge. -/
structure EdgeKey where
  source : String
  target : String
  kind : EdgeKind
  deriving Repr, DecidableEq

/-- An edge. -/
structure Edge where
  /-- The node that depends. -/
  source : String
  /-- The node it depends on. -/
  target : String
  kind : EdgeKind
  /-- Can the dependent do without? -/
  optional : Bool := false
  /-- Is the dependency followed only at run time? -/
  dynamic : Bool := false
  weight : Float := 1.0
  deriving Repr

/-- The identity of the edge. -/
def Edge.key (e : Edge) : EdgeKey :=
  ⟨e.source, e.target, e.kind⟩

namespace EdgeKey

/-- The order of edges: by source, by target, by kind. -/
def order (a b : EdgeKey) : Ordering :=
  (compare a.source b.source).then
    ((compare a.target b.target).then (compare a.kind.rank b.kind.rank))

/-- Does the first edge come no later than the second? -/
def le (a b : EdgeKey) : Bool :=
  (order a b).isLE

end EdgeKey

end DepGraph

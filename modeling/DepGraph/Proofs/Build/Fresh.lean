import DepGraph.Build.Basic
import DepGraph.Proofs.Graph.Annotation
import DepGraph.Proofs.Graph.Union

/-!
# Graphs before their analysis

The graph of a build is in step, and no node is marked as critical or cyclic: whatever a file holds
and whatever its imports stand for, nodes come into the graph without marks.

- `Graph.Fresh`: in step, and without marks.
- `fresh_addNode`, `fresh_addEdge`, `fresh_merge`: the operations keep this.
- `fresh_ofManifest`, `Build.fresh_process`: so it holds of the packages of a manifest, and of a
  build after one more file.
-/

namespace DepGraph

/-- Nothing has been found out about the node yet. -/
def Node.Unmarked (n : Node) : Prop :=
  n.critical = false ∧ n.cyclic = false

theorem Node.unmarked_of_isolated_eq {n m : Node} (h : n.isolated = m.isolated)
    (hm : m.Unmarked) : n.Unmarked :=
  ⟨(congrArg Node.critical h).trans hm.1, (congrArg Node.cyclic h).trans hm.2⟩

namespace Graph

/-- The graph is in step, and nothing has been found out about its nodes yet. -/
structure Fresh (g : Graph) : Prop extends Consistent g where
  unmarked : ∀ {id node}, g.node? id = some node → node.Unmarked

variable {g other : Graph}

theorem fresh_empty (createdAt : Timestamp) : Fresh { createdAt } where
  toConsistent := consistent_empty createdAt
  unmarked := by intro id node h; simp [node?, lookup?] at h

theorem fresh_addNode (h : g.Fresh) {node : Node} (hdependencies : node.dependencies = #[])
    (hdependents : node.dependents = #[]) (hnode : node.Unmarked) : (g.addNode node).Fresh where
  toConsistent := consistent_addNode h.toConsistent hdependencies hdependents
  unmarked {id found} hfound := by
    rw [node?_addNode] at hfound
    split at hfound
    · exact Option.some.inj hfound ▸ hnode
    · exact h.unmarked hfound

theorem fresh_addEdge (h : g.Fresh) (e : Edge) : (g.addEdge e).Fresh where
  toConsistent := consistent_addEdge h.toConsistent e
  unmarked {id found} hfound := by
    have hsame := isolated_node?_addEdge g e id
    rw [hfound, Option.map_some] at hsame
    obtain ⟨old, hold, heq⟩ := Option.map_eq_some_iff.mp hsame.symm
    exact Node.unmarked_of_isolated_eq heq.symm (h.unmarked hold)

theorem fresh_merge (h : g.Fresh) (hother : other.Fresh) : (g.merge other).Fresh where
  toConsistent := consistent_merge h.toConsistent other
  unmarked {id found} hfound := by
    have hsame := isolated_node?_merge g hother.toConsistent id
    rw [hfound, Option.map_some] at hsame
    obtain ⟨old, hold, heq⟩ := Option.map_eq_some_iff.mp hsame.symm
    refine Node.unmarked_of_isolated_eq heq.symm ?_
    rcases Option.or_eq_some_iff.mp hold with hold | ⟨-, hold⟩
    · exact h.unmarked hold
    · exact hother.unmarked hold

/-- A change that keeps links and marks. -/
theorem fresh_modifyNode (h : g.Fresh) {change : Node → Node} (hlinks : Node.KeepsLinks change)
    (hmarks : ∀ n, n.Unmarked → (change n).Unmarked) (id : String) :
    (g.modifyNode id change).Fresh where
  toConsistent := (rewritten_modifyNode g id change).consistent (fun _ => hlinks.ite _)
    h.toConsistent
  unmarked {other found} hfound := by
    rw [node?_modifyNode] at hfound
    split at hfound
    · obtain ⟨old, hold, rfl⟩ := Option.map_eq_some_iff.mp hfound
      exact hmarks old (h.unmarked hold)
    · exact h.unmarked hfound

/-! ## Builds -/

theorem fresh_foldl_addNode {nodes : List Node} (h : g.Fresh)
    (hnodes : ∀ node ∈ nodes, node.Unmarked) :
    (nodes.foldl (fun g node => g.addNode node.isolated) g).Fresh := by
  induction nodes generalizing g with
  | nil => exact h
  | cons node nodes ih =>
    obtain ⟨hnode, hrest⟩ := List.forall_mem_cons.mp hnodes
    exact ih (fresh_addNode h rfl rfl hnode) hrest

/-- The node of a declared package. -/
def declaredNode (d : Dependency) : Node :=
  { Node.package d.name d.version with dependencyClass := some d.dependencyClass }

theorem ofManifest_eq_foldl (c : Configuration) (m : Manifest) (now : Timestamp) :
    ofManifest c m now = ((m.select c.selection).map declaredNode).foldl
      (fun g node => g.addNode node.isolated) { createdAt := now } := by
  rw [List.foldl_map]
  rfl

theorem fresh_ofManifest (c : Configuration) (m : Manifest) (now : Timestamp) :
    (ofManifest c m now).Fresh := by
  rw [ofManifest_eq_foldl]
  refine fresh_foldl_addNode (fresh_empty now) fun node hnode => ?_
  obtain ⟨d, -, rfl⟩ := List.mem_map.mp hnode
  exact ⟨rfl, rfl⟩

theorem fresh_addImport (h : g.Fresh) (id : String) (target : Resolution) (dynamic : Bool) :
    (g.addImport id target dynamic).Fresh :=
  fresh_addEdge (fresh_addNode h rfl rfl ⟨rfl, rfl⟩) _

theorem fresh_foldl_addImport (id : String) :
    ∀ (targets : List (Resolution × Bool)) {g : Graph}, g.Fresh →
      (targets.foldl (fun g target => g.addImport id target.1 target.2) g).Fresh
  | [], _, h => h
  | target :: targets, _, h =>
    fresh_foldl_addImport id targets (fresh_addImport h id target.1 target.2)

end Graph

namespace Build

open DepGraph.Graph

/-- What is measured of a file says nothing about its links and marks. -/
theorem keepsLinks_measure (size : Option Nat) (modified : Option Timestamp) :
    Node.KeepsLinks fun n => { n with size, lastModified := modified } :=
  ⟨fun _ => rfl, fun _ => rfl, fun _ => rfl⟩

theorem fresh_addSource {b : Build} (h : b.graph.Fresh) (tools : Toolbox) (scope : Scope)
    (f : SourceFile) (source : SourceText) :
    (b.addSource tools scope f source).1.graph.Fresh := by
  have hmeasured := fresh_modifyNode h (keepsLinks_measure (some source.size) source.modified)
    (fun _ hn => hn) f.id
  unfold addSource
  dsimp only
  split
  · exact hmeasured
  · split
    · exact hmeasured
    · exact fresh_foldl_addImport f.id _ hmeasured

/-- One more file leaves the graph fresh, whether or not it could be read and parsed. -/
theorem fresh_process {b : Build} (h : b.graph.Fresh) (tools : Toolbox) (scope : Scope)
    (f : SourceFile) (content : Except FileError SourceText) :
    (b.process tools scope f content).1.graph.Fresh := by
  have hnode : (b.graph.addNode (f.node scope.root)).Fresh := fresh_addNode h rfl rfl ⟨rfl, rfl⟩
  cases content with
  | error e => exact hnode
  | ok source => exact fresh_addSource hnode tools scope f source

end Build

end DepGraph

import DepGraph.Analysis.Depth
import DepGraph.Proofs.Graph.Built

/-!
# Writing into nodes

An analysis writes what it finds into the nodes of a graph. Identifiers, neighbours and edges stay
as they are, so whatever a search goes over stays as it is too, and the graph stays in step.

- `Rewritten`: the second graph is the first one with every node changed, each in its own way.
- `rewritten_foldl_mark`: marking some nodes one after another, in any order and any number of
  times, changes those nodes once and no other.
- `Rewritten.firstSeen_eq`, `Rewritten.byId_eq`: changes that keep the links are not seen by a
  search.
- `Noted`: the graphs that are built and written into, links aside, with `Noted.consistent`.
-/

namespace DepGraph

/-- The change leaves the identifier and the neighbours of a node as they are. -/
structure Node.KeepsLinks (change : Node → Node) : Prop where
  id_eq : ∀ n, (change n).id = n.id
  dependencies_eq : ∀ n, (change n).dependencies = n.dependencies
  dependents_eq : ∀ n, (change n).dependents = n.dependents

/-- A change that is made or not keeps the links if it does where it is made. -/
theorem Node.KeepsLinks.ite {change : Node → Node} (h : KeepsLinks change) (p : Prop)
    [Decidable p] : KeepsLinks fun n => if p then change n else n := by
  by_cases hp : p
  · simpa only [if_pos hp] using h
  · simp only [if_neg hp]
    exact ⟨fun _ => rfl, fun _ => rfl, fun _ => rfl⟩

namespace Entry

/-- What is kept of a node after a change of the node. -/
def mapNode (change : Node → Node) (entry : Entry) : Entry :=
  { entry with node := change entry.node }

theorem reflects_mapNode {change : Node → Node} (hlinks : Node.KeepsLinks change) {entry : Entry}
    {id : String} {outgoing incoming : List Edge} (h : entry.Reflects id outgoing incoming) :
    (entry.mapNode change).Reflects id outgoing incoming where
  id_eq := (hlinks.id_eq entry.node).trans h.id_eq
  outgoing_eq := h.outgoing_eq
  dependencies_eq := (congrArg Array.toList (hlinks.dependencies_eq _)).trans h.dependencies_eq
  dependents_eq := (congrArg Array.toList (hlinks.dependents_eq _)).trans h.dependents_eq

end Entry

namespace Graph

open DepthFirst

/-- The second graph is the first one with every node changed as its identifier says. -/
structure Rewritten (change : String → Node → Node) (g g' : Graph) : Prop where
  edges_eq : g'.edges = g.edges
  lookup?_eq : ∀ id, g'.lookup? id = (g.lookup? id).map (Entry.mapNode (change id))

namespace Rewritten

variable {change change' : String → Node → Node} {g g' g'' : Graph}

theorem refl (g : Graph) : Rewritten (fun _ n => n) g g where
  edges_eq := rfl
  lookup?_eq _ := Option.map_id'.symm

/-- One change after another. -/
theorem trans (h : Rewritten change g g') (h' : Rewritten change' g' g'') :
    Rewritten (fun id n => change' id (change id n)) g g'' where
  edges_eq := h'.edges_eq.trans h.edges_eq
  lookup?_eq id := by
    rw [h'.lookup?_eq, h.lookup?_eq, Option.map_map]
    rfl

/-- Only what happens to the nodes that are there counts. -/
theorem congr (h : Rewritten change g g')
    (heq : ∀ id node, g.node? id = some node → change id node = change' id node) :
    Rewritten change' g g' where
  edges_eq := h.edges_eq
  lookup?_eq id := by
    rw [h.lookup?_eq]
    cases hentry : g.lookup? id with
    | none => rfl
    | some entry =>
      have hnode : g.node? id = some entry.node := by rw [node?, hentry, Option.map_some]
      rw [Option.map_some, Option.map_some, Entry.mapNode, heq id entry.node hnode, Entry.mapNode]

/-- What is remembered beside nodes and edges plays no part. -/
theorem of_entries (h : Rewritten change g g') (hentries : g''.entries = g'.entries)
    (hedges : g''.edges = g'.edges) : Rewritten change g g'' where
  edges_eq := hedges.trans h.edges_eq
  lookup?_eq id := by
    rw [lookup?, hentries]
    exact h.lookup?_eq id

end Rewritten

/-! ## Marking -/

theorem rewritten_modifyNode (g : Graph) (id : String) (change : Node → Node) :
    Rewritten (fun other n => if other = id then change n else n) g (g.modifyNode id change) where
  edges_eq := rfl
  lookup?_eq other := by
    simp only [modifyNode, lookup?, Std.TreeMap.getElem?_modify, Std.compare_eq_iff_eq]
    by_cases heq : id = other
    · subst heq
      simp only [if_true]
      rfl
    · simp only [if_neg heq, if_neg (Ne.symm heq)]
      exact Option.map_id'.symm

/-- Marking nodes one after another marks exactly those, however often they are named. -/
theorem rewritten_foldl_mark (mark : String → Node → Node)
    (hmark : ∀ id n, mark id (mark id n) = mark id n) (ids : List String) (g : Graph) :
    Rewritten (fun id n => if id ∈ ids then mark id n else n) g
      (ids.foldl (fun g id => g.modifyNode id (mark id)) g) := by
  induction ids generalizing g with
  | nil => simpa using Rewritten.refl g
  | cons first ids ih =>
    refine ((rewritten_modifyNode g first (mark first)).trans (ih _)).congr fun id n _ => ?_
    by_cases heq : id = first
    · subst heq
      by_cases hmem : id ∈ ids <;> simp [hmem, hmark]
    · simp [heq]

/-! ## What changes of nodes leave as it is -/

namespace Rewritten

variable {change : String → Node → Node} {g g' : Graph} (h : Rewritten change g g')

include h

/-- The entries are those of the first graph, each of them changed. -/
theorem entries_equiv :
    g'.entries.Equiv (g.entries.map fun id entry => entry.mapNode (change id)) := by
  refine Std.TreeMap.Equiv.of_forall_constGet?_eq fun id => ?_
  rw [Std.TreeMap.getElem?_map]
  exact h.lookup?_eq id

theorem node?_eq (id : String) : g'.node? id = (g.node? id).map (change id) := by
  rw [node?, h.lookup?_eq, node?, Option.map_map, Option.map_map]
  rfl

theorem contains_eq (id : String) : g'.contains id = g.contains id := by
  rw [contains_eq_isSome, h.lookup?_eq, Option.isSome_map, contains_eq_isSome]

theorem nodeIds_eq : g'.nodeIds = g.nodeIds := by
  unfold nodeIds
  rw [h.entries_equiv.keys_eq, ← Std.TreeMap.map_fst_toList_eq_keys, Std.TreeMap.toList_map,
    List.map_map, ← Std.TreeMap.map_fst_toList_eq_keys]
  rfl

theorem nodeCount_eq : g'.nodeCount = g.nodeCount := by
  unfold nodeCount
  rw [h.entries_equiv.size_eq, Std.TreeMap.size_map]

theorem edgesFrom_eq (id : String) : g'.edgesFrom id = g.edgesFrom id := by
  unfold edgesFrom
  rw [h.lookup?_eq]
  cases g.lookup? id <;> rfl

theorem place?_eq (id : String) : g'.place? id = g.place? id := by
  rw [place?, h.lookup?_eq, place?, Option.map_map]
  rfl

section KeepsLinks

variable (hlinks : ∀ id, Node.KeepsLinks (change id))

include hlinks

theorem dependencyIds_eq (id : String) : g'.dependencyIds id = g.dependencyIds id := by
  unfold dependencyIds
  rw [h.node?_eq]
  cases g.node? id with
  | none => rfl
  | some node => exact congrArg Array.toList ((hlinks id).dependencies_eq node)

/-- A search from the nodes in the order of their identifiers goes the same way. -/
theorem firstSeen_eq : g'.firstSeen = g.firstSeen := by
  have hnext : g'.dependencyIds = g.dependencyIds := funext (h.dependencyIds_eq hlinks)
  simp only [firstSeen, h.nodeIds_eq, hnext]

theorem byId_eq : g'.byId = g.byId := by
  have hnext : g'.dependencyIds = g.dependencyIds := funext (h.dependencyIds_eq hlinks)
  simp only [byId, h.nodeIds_eq, hnext]

theorem compute_eq : Depths.compute g' = Depths.compute g := by
  unfold Depths.compute
  rw [h.byId_eq hlinks]

/-- The graph stays in step. -/
theorem consistent (hg : g.Consistent) : g'.Consistent := by
  have hout : ∀ id, g'.edgesOut id = g.edgesOut id := fun id => by
    rw [edgesOut, h.edges_eq, edgesOut]
  have hinto : ∀ id, g'.edgesInto id = g.edgesInto id := fun id => by
    rw [edgesInto, h.edges_eq, edgesInto]
  have hold : ∀ {id entry}, g'.lookup? id = some entry →
      ∃ old, g.lookup? id = some old ∧ old.mapNode (change id) = entry := fun {id _} hentry =>
    Option.map_eq_some_iff.mp ((h.lookup?_eq id).symm.trans hentry)
  refine { place_lt := ?_, place_inj := ?_, place_onto := ?_, reflects := ?_, source_mem := ?_,
           target_mem := ?_, nodup_keys := by rw [h.edges_eq]; exact hg.nodup_keys }
  · intro id entry hentry
    obtain ⟨old, hlookup, rfl⟩ := hold hentry
    rw [h.nodeCount_eq]
    exact (hg.place_lt hlookup : old.place < g.nodeCount)
  · intro id other entry entry' hentry hentry' hplace
    obtain ⟨old, hlookup, rfl⟩ := hold hentry
    obtain ⟨old', hlookup', rfl⟩ := hold hentry'
    exact hg.place_inj hlookup hlookup' hplace
  · intro place hplace
    rw [h.nodeCount_eq] at hplace
    obtain ⟨id, old, hlookup, hat⟩ := hg.place_onto place hplace
    exact ⟨id, old.mapNode (change id), by rw [h.lookup?_eq, hlookup, Option.map_some], hat⟩
  · intro id entry hentry
    obtain ⟨old, hlookup, rfl⟩ := hold hentry
    rw [hout, hinto]
    exact Entry.reflects_mapNode (hlinks id) (hg.reflects hlookup)
  · rw [h.edges_eq]
    exact fun e he => (h.contains_eq _).trans (hg.source_mem e he)
  · rw [h.edges_eq]
    exact fun e he => (h.contains_eq _).trans (hg.target_mem e he)

end KeepsLinks

end Rewritten

/-! ## Building and writing by turns -/

/-- The graphs that come from the empty one by adding nodes without neighbours, adding edges,
merging, writing into nodes what leaves their links alone, and keeping what an analysis found. -/
inductive Noted : Graph → Prop
  | empty (createdAt : Timestamp) : Noted { createdAt }
  | addNode {g : Graph} {node : Node} (hg : Noted g) (hdependencies : node.dependencies = #[])
      (hdependents : node.dependents = #[]) : Noted (g.addNode node)
  | addEdge {g : Graph} (e : Edge) (hg : Noted g) : Noted (g.addEdge e)
  | merge {g other : Graph} (hg : Noted g) (hother : Noted other) : Noted (g.merge other)
  | modifyNode {g : Graph} (id : String) {change : Node → Node} (hlinks : Node.KeepsLinks change)
      (hg : Noted g) : Noted (g.modifyNode id change)
  | analyzed {g : Graph} (analyzedAt : Option Timestamp) (statistics : Option Statistics)
      (hg : Noted g) : Noted { g with analyzedAt, statistics }

theorem Noted.consistent {g : Graph} (h : g.Noted) : g.Consistent := by
  induction h with
  | empty createdAt => exact consistent_empty createdAt
  | addNode _ hdependencies hdependents ih => exact consistent_addNode ih hdependencies hdependents
  | addEdge e _ ih => exact consistent_addEdge ih e
  | @merge g other _ _ ih _ => exact consistent_merge ih other
  | modifyNode id hlinks _ ih =>
    exact (rewritten_modifyNode _ id _).consistent (fun other => hlinks.ite (other = id)) ih
  | analyzed _ _ _ ih => exact { ih with }

theorem Built.noted {g : Graph} (h : g.Built) : g.Noted := by
  induction h with
  | empty createdAt => exact .empty createdAt
  | addNode _ hdependencies hdependents ih => exact .addNode ih hdependencies hdependents
  | addEdge e _ ih => exact .addEdge e ih
  | merge _ _ ih ihother => exact .merge ih ihother

end Graph

end DepGraph

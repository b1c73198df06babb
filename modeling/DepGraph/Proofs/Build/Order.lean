import DepGraph.Proofs.Build.Packages
import DepGraph.Proofs.Graph.Structure
import DepGraph.Proofs.Resolve.Confinement

/-!
# The order of processing

The node of a file comes into the graph when its turn has come, or before that, because another file
imports it. With the resolvers for files it says the same either way: everything but its
neighbours can be told from its identifier and from what was read of the file under it. So the order
in which files are processed shows in the order of the edges and of neighbours, and nowhere else, if
no two of them have one identifier.

- `SourceFile.node_eq_of_id_eq`: an identifier tells all that is known before a file is read.
- `Plan.nodeOf`: what the node of a file says, after some of the source files.
- `Plan.Labelled`: the nodes of a graph say this, with its step `Plan.labelled_process`.
- `Plan.Settled`: all that can be told from the source files about what is built from them.
- `Alike`: two builds differ in the order of processing at most.
- `ofDirectory_permuted`: builds in different orders are alike.
- `not_alike_ofDirectory_alike`: if two files share an identifier, they need not be.
-/

namespace DepGraph

open DepGraph.Graph Run

/-! ## Targets -/

theorem SourceFile.path_ofNames (root steps : List FileName) :
    SourceFile.path (.ofNames root) ⟨steps⟩ = .ofNames (root ++ steps) := by
  unfold Path.ofNames SourceFile.path
  rw [List.map_append]

/-- The node of what a resolver answers is the node of the file. -/
theorem Resolution.node_ofSteps (root steps : List FileName) :
    (ofSteps root steps).node = SourceFile.node (.ofNames root) ⟨steps⟩ := by
  unfold ofSteps node SourceFile.node
  rw [SourceFile.path_ofNames]
  rfl

/-- What a node says of a file that was not read, its identifier tells. -/
theorem SourceFile.node_eq_of_id_eq (root : List FileName) {f f' : SourceFile}
    (hf : f.steps ≠ []) (hf' : f'.steps ≠ []) (h : f.id = f'.id) :
    f.node (.ofNames root) = f'.node (.ofNames root) := by
  obtain ⟨steps⟩ := f
  obtain ⟨steps'⟩ := f'
  have hshown : steps.map FileName.text = steps'.map FileName.text := (idOf_eq_iff hf hf').mp h
  have hname : (steps.getLast?).map FileName.text = (steps'.getLast?).map FileName.text := by
    rw [← List.getLast?_map, hshown, List.getLast?_map]
  have hsource : (Path.ofNames (root ++ steps)).text = (Path.ofNames (root ++ steps')).text := by
    rw [Path.text_ofNames, Path.text_ofNames, idOf, idOf, List.map_append, hshown, List.map_append]
  unfold SourceFile.node
  rw [path_ofNames, path_ofNames, hname, hsource, h]

theorem find?_id_eq_none {sources : List SourceFile} {id : String}
    (h : id ∉ sources.map SourceFile.id) : sources.find? (·.id == id) = none :=
  List.find?_eq_none.mpr fun f hf hid => h (List.mem_map.mpr ⟨f, hf, beq_iff_eq.mp hid⟩)

/-- If no two files have one identifier, it finds the file. -/
theorem find?_id_eq_some_iff {sources : List SourceFile}
    (hnodup : (sources.map SourceFile.id).Nodup) {id : String} {f : SourceFile} :
    sources.find? (·.id == id) = some f ↔ f ∈ sources ∧ f.id = id := by
  constructor
  · intro h
    exact ⟨List.mem_of_find?_eq_some h, by simpa using List.find?_some h⟩
  · rintro ⟨hf, rfl⟩
    have hsome : (sources.find? (·.id == f.id)).isSome = true :=
      List.find?_isSome.mpr ⟨f, hf, beq_self_eq_true f.id⟩
    obtain ⟨f', hf'⟩ := Option.isSome_iff_exists.mp hsome
    have hid : f'.id = f.id := by simpa using List.find?_some hf'
    rwa [List.inj_on_of_nodup_map hnodup (List.mem_of_find?_eq_some hf') hf hid] at hf'

theorem ResolverRegistry.below_of_resolve_standard {files : FileSystem} {root : List FileName}
    {i : Import} {importer : Path} {r : Resolution}
    (h : standard.resolve (files.below root) i importer = some r) : r.Below files root := by
  rw [resolve_standard, Option.or_eq_some_iff] at h
  rcases h with h | ⟨-, h⟩
  · exact RelativeImport.below_of_resolve h
  · exact PythonModule.below_of_resolve h

namespace Build

variable {p : Plan} {files : FileSystem}

theorem Plan.below_of_mem_targetsOf (hstandard : p.tools.resolvers = .standard)
    {f : SourceFile} {target : Resolution × Bool} (htarget : target ∈ p.targetsOf files f) :
    target.1.Below files p.root := by
  unfold targetsOf at htarget
  split at htarget
  · obtain ⟨i, -, hi⟩ := List.mem_filterMap.mp htarget
    obtain ⟨r, hr, rfl⟩ := Option.map_eq_some_iff.mp hi
    rw [hstandard] at hr
    exact ResolverRegistry.below_of_resolve_standard hr
  · exact nomatch htarget

/-! ## Nodes -/

/-- What was read of the file under an identifier, after some of the source files. -/
def Plan.sourceUnder? (p : Plan) (files : FileSystem) (done : List SourceFile) (id : String) :
    Option SourceText :=
  (done.find? (·.id == id)).bind fun f => (p.read files f).toOption

theorem Plan.sourceUnder?_of_not_mem {done : List SourceFile} {id : String}
    (h : id ∉ done.map SourceFile.id) : p.sourceUnder? files done id = none := by
  rw [sourceUnder?, find?_id_eq_none h]
  rfl

theorem Plan.sourceUnder?_concat {done : List SourceFile} {f : SourceFile}
    (hnew : f.id ∉ done.map SourceFile.id) (id : String) :
    p.sourceUnder? files (done ++ [f]) id =
      if f.id = id then (p.read files f).toOption else p.sourceUnder? files done id := by
  split
  · next hid =>
    subst hid
    rw [sourceUnder?, List.find?_append, find?_id_eq_none hnew, List.find?_singleton,
      if_pos (beq_self_eq_true _)]
    rfl
  · next hid =>
    rw [sourceUnder?, List.find?_append, List.find?_singleton, if_neg (by simpa using hid),
      Option.or_none]
    rfl

theorem Plan.sourceUnder?_of_perm {done done' : List SourceFile} (h : done'.Perm done)
    (hnodup : (done.map SourceFile.id).Nodup) (id : String) :
    p.sourceUnder? files done' id = p.sourceUnder? files done id := by
  have hfind : done'.find? (·.id == id) = done.find? (·.id == id) := by
    refine Option.ext fun f => ?_
    rw [find?_id_eq_some_iff ((h.map _).nodup_iff.mpr hnodup), find?_id_eq_some_iff hnodup,
      h.mem_iff]
  rw [sourceUnder?, hfind, sourceUnder?]

/-- What the node of a file says apart from its neighbours, after some of the source files. The file
under its identifier is measured when it is processed. -/
def Plan.nodeOf (p : Plan) (files : FileSystem) (done : List SourceFile) (f : SourceFile) : Node :=
  match p.sourceUnder? files done f.id with
  | none => f.node p.rootPath
  | some source =>
    { f.node p.rootPath with size := some source.size, lastModified := source.modified }

theorem Plan.nodeOf_of_not_mem {done : List SourceFile} {f : SourceFile}
    (h : f.id ∉ done.map SourceFile.id) : p.nodeOf files done f = f.node p.rootPath := by
  rw [nodeOf, sourceUnder?_of_not_mem h]

theorem Plan.nodeOf_concat_of_ne {done : List SourceFile} {f other : SourceFile}
    (hnew : f.id ∉ done.map SourceFile.id) (hne : f.id ≠ other.id) :
    p.nodeOf files (done ++ [f]) other = p.nodeOf files done other := by
  rw [nodeOf, sourceUnder?_concat hnew, if_neg hne, nodeOf]

/-- Files under one identifier have the same node. -/
theorem Plan.nodeOf_eq_of_id_eq (done : List SourceFile) {f f' : SourceFile} (hf : f.steps ≠ [])
    (hf' : f'.steps ≠ []) (h : f.id = f'.id) : p.nodeOf files done f = p.nodeOf files done f' := by
  rw [nodeOf, nodeOf, h, rootPath, SourceFile.node_eq_of_id_eq p.root hf hf' h]

/-- Every node says what the node of a file says, after some of the source files. -/
structure Plan.Labelled (p : Plan) (files : FileSystem) (done : List SourceFile) (g : Graph) :
    Prop where
  contains : ∀ f ∈ done, g.contains f.id = true
  isolated_eq : ∀ id node, g.node? id = some node → ∃ f : SourceFile, f.steps ≠ [] ∧ f.id = id ∧
    node.isolated = p.nodeOf files done f

theorem Plan.labelled_nil (p : Plan) (files : FileSystem) (createdAt : Timestamp) :
    p.Labelled files [] { createdAt } where
  contains _ hf := nomatch hf
  isolated_eq id node hnode := by simp [node?, lookup?] at hnode

section Labelled

variable {done : List SourceFile} {g : Graph} (h : p.Labelled files done g)

include h

/-- The node of a file that is new to the graph says what is known of a file that was not
processed. -/
theorem Plan.Labelled.addNode {f : SourceFile} (hf : f.steps ≠ []) :
    p.Labelled files done (g.addNode (f.node p.rootPath)) where
  contains other hother := by
    rw [contains_addNode, h.contains other hother, Bool.true_or]
  isolated_eq id node hnode := by
    rw [node?_addNode] at hnode
    split at hnode
    · next hnew =>
      -- all files that were processed are in the graph, so this one was not
      obtain ⟨rfl, hnew⟩ := hnew
      obtain rfl := Option.some.inj hnode
      refine ⟨f, hf, rfl, (nodeOf_of_not_mem fun hmem => ?_).symm⟩
      obtain ⟨other, hother, hid⟩ := List.mem_map.mp hmem
      have hcontains := h.contains other hother
      rw [hid] at hcontains
      exact Bool.false_ne_true (hnew.symm.trans hcontains)
    · exact h.isolated_eq id node hnode

theorem Plan.Labelled.addEdge (e : Edge) : p.Labelled files done (g.addEdge e) where
  contains f hf := by rw [contains_addEdge, h.contains f hf]
  isolated_eq id node hnode := by
    have hsame := isolated_node?_addEdge g e id
    rw [hnode, Option.map_some] at hsame
    obtain ⟨old, hold, hisolated⟩ := Option.map_eq_some_iff.mp hsame.symm
    obtain ⟨f, hf, hid, heq⟩ := h.isolated_eq id old hold
    exact ⟨f, hf, hid, hisolated.symm.trans heq⟩

theorem Plan.Labelled.addImports (id : String) {targets : List (Resolution × Bool)}
    (htargets : ∀ target ∈ targets, target.1.Below files p.root) :
    p.Labelled files done
      (targets.foldl (fun g target => g.addImport id target.1 target.2) g) := by
  induction targets generalizing g with
  | nil => exact h
  | cons target targets ih =>
    -- a target is a file as well, and may come into the graph before its turn
    obtain ⟨⟨steps, hne, -, hsteps⟩, hrest⟩ := List.forall_mem_cons.mp htargets
    obtain ⟨r, dynamic⟩ := target
    obtain rfl : r = .ofSteps p.root steps := hsteps
    have hadded : p.Labelled files done (g.addNode (Resolution.ofSteps p.root steps).node) :=
      Resolution.node_ofSteps p.root steps ▸ h.addNode hne
    exact ih (hadded.addEdge _) hrest

theorem Plan.Labelled.contains_concat {f : SourceFile} (hcontains : g.contains f.id = true) :
    ∀ other ∈ done ++ [f], g.contains other.id = true := by
  intro other hmem
  rcases List.mem_append.mp hmem with hmem | hmem
  · exact h.contains other hmem
  · rw [List.mem_singleton.mp hmem, hcontains]

/-- A file that cannot be read is not measured. -/
theorem Plan.Labelled.concat_of_error {f : SourceFile} {e : FileError}
    (hread : p.read files f = .error e) (hcontains : g.contains f.id = true)
    (hnew : f.id ∉ done.map SourceFile.id) : p.Labelled files (done ++ [f]) g where
  contains := h.contains_concat hcontains
  isolated_eq id node hnode := by
    obtain ⟨other, hsteps, hid, heq⟩ := h.isolated_eq id node hnode
    refine ⟨other, hsteps, hid, heq.trans ?_⟩
    by_cases hother : f.id = other.id
    · rw [nodeOf, ← hother, sourceUnder?_of_not_mem hnew, nodeOf, ← hother,
        sourceUnder?_concat hnew, if_pos rfl, hread]
      rfl
    · exact (nodeOf_concat_of_ne hnew hother).symm

/-- A file that was read is measured, and no other file is. -/
theorem Plan.Labelled.concat_of_ok {f : SourceFile} {source : SourceText}
    (hread : p.read files f = .ok source) (hcontains : g.contains f.id = true)
    (hnew : f.id ∉ done.map SourceFile.id) :
    p.Labelled files (done ++ [f]) (g.modifyNode f.id fun node =>
      { node with size := some source.size, lastModified := source.modified }) where
  contains other hmem := by
    rw [(rewritten_modifyNode _ _ _).contains_eq]
    exact h.contains_concat hcontains other hmem
  isolated_eq id node hnode := by
    rw [node?_modifyNode] at hnode
    split at hnode
    · next hid =>
      -- no file under the identifier was processed, so the node is unmeasured yet
      obtain ⟨old, hold, rfl⟩ := Option.map_eq_some_iff.mp hnode
      obtain ⟨other, hsteps, hother, heq⟩ := h.isolated_eq id old hold
      have hsame : f.id = other.id := hid.trans hother.symm
      rw [nodeOf_of_not_mem (hsame ▸ hnew)] at heq
      have hmeasured : p.nodeOf files (done ++ [f]) other =
          { old.isolated with size := some source.size, lastModified := source.modified } := by
        rw [nodeOf, sourceUnder?_concat hnew, if_pos hsame, hread, heq]
        rfl
      exact ⟨other, hsteps, hother, hmeasured.symm⟩
    · next hid =>
      obtain ⟨other, hsteps, hother, heq⟩ := h.isolated_eq id node hnode
      exact ⟨other, hsteps, hother,
        heq.trans (nodeOf_concat_of_ne hnew fun hsame => hid (hsame.trans hother)).symm⟩

end Labelled

/-- Processing a file with a new identifier adds nodes that say what is known of their files. -/
theorem Plan.labelled_process {done : List SourceFile} {b : Build}
    (h : p.Labelled files done b.graph) (hstandard : p.tools.resolvers = .standard)
    {f : SourceFile} (hnew : f.id ∉ done.map SourceFile.id) (hf : f.steps ≠ []) :
    p.Labelled files (done ++ [f])
      (b.process p.tools (p.scope files) f (p.read files f)).1.graph := by
  -- first comes the node of the file, then what was measured, then what it imports
  have hopened := h.addNode hf
  have hcontains : (b.graph.addNode (f.node p.rootPath)).contains f.id = true := by
    rw [contains_addNode]
    exact Bool.or_eq_true_iff.mpr (.inr (beq_self_eq_true _))
  have hfile : p.Labelled files (done ++ [f])
      (withFile (p.scope files) f (p.read files f) b.graph) := by
    cases hread : p.read files f with
    | error e => exact hopened.concat_of_error hread hcontains hnew
    | ok source => exact hopened.concat_of_ok hread hcontains hnew
  rw [graph_process]
  exact hfile.addImports f.id fun target htarget => below_of_mem_targetsOf hstandard htarget

theorem Plan.labelled_after (hstandard : p.tools.resolvers = .standard)
    {done sources : List SourceFile} {b : Build} (h : p.Labelled files done b.graph)
    (hnodup : ((done ++ sources).map SourceFile.id).Nodup)
    (hsteps : ∀ f ∈ sources, f.steps ≠ []) :
    p.Labelled files (done ++ sources) (p.after files sources b).graph := by
  -- the files that are done grow from the front of those that are left
  induction sources generalizing done b with
  | nil => simpa [after] using h
  | cons f sources ih =>
    have hnew : f.id ∉ done.map SourceFile.id := by
      rw [List.map_append, List.map_cons] at hnodup
      exact fun hmem => (List.nodup_append.mp hnodup).2.2 _ hmem _ List.mem_cons_self rfl
    obtain ⟨hf, hrest⟩ := List.forall_mem_cons.mp hsteps
    rw [List.append_cons] at hnodup ⊢
    exact ih (labelled_process h hstandard hnew hf) hnodup hrest

/-! ## Another order -/

/-- What two builds have in common that come of the same files in different orders. -/
structure Alike (b b' : Build) : Prop where
  sameStructure : b'.graph.sameStructure b.graph = true
  /-- The nodes say the same, apart from their neighbours. -/
  isolated_node? : ∀ id,
    (b'.graph.node? id).map Node.isolated = (b.graph.node? id).map Node.isolated
  /-- They name the same neighbours. -/
  neighbours : ∀ id node node', b.graph.node? id = some node → b'.graph.node? id = some node' →
    node'.dependencies.toList.Perm node.dependencies.toList ∧
      node'.dependents.toList.Perm node.dependents.toList
  /-- The edges are the same, with all that they record. -/
  edges : b'.graph.edges.toList.Perm b.graph.edges.toList
  filesAnalyzed_eq : b'.filesAnalyzed = b.filesAnalyzed
  fileErrors : b'.fileErrors.toList.Perm b.fileErrors.toList

/-- Nodes that say what the same files say are the same, apart from their neighbours. -/
theorem Plan.Labelled.isolated_node?_eq {done done' : List SourceFile} {g g' : Graph}
    (h : p.Labelled files done g) (h' : p.Labelled files done' g')
    (hdone : ∀ id, p.sourceUnder? files done id = p.sourceUnder? files done' id)
    (hcontains : ∀ id, g.contains id = g'.contains id)
    (id : String) : (g.node? id).map Node.isolated = (g'.node? id).map Node.isolated := by
  have hsome := hcontains id
  rw [contains_eq_isSome_node?, contains_eq_isSome_node?] at hsome
  cases hnode : g.node? id with
  | none =>
    rw [hnode, Option.isSome_none] at hsome
    rw [Option.not_isSome_iff_eq_none.mp (Bool.eq_false_iff.mp hsome.symm)]
  | some node =>
    rw [hnode, Option.isSome_some] at hsome
    obtain ⟨node', hnode'⟩ := Option.isSome_iff_exists.mp hsome.symm
    obtain ⟨f, hf, hid, heq⟩ := h.isolated_eq id node hnode
    obtain ⟨f', hf', hid', heq'⟩ := h'.isolated_eq id node' hnode'
    have hsame : p.nodeOf files done f = p.nodeOf files done' f' :=
      (nodeOf_eq_of_id_eq done hf hf' (hid.trans hid'.symm)).trans (by rw [nodeOf, hdone, nodeOf])
    rw [hnode', Option.map_some, Option.map_some, heq, heq', hsame]

/-- All that can be told from the source files about what is built from them. -/
structure Plan.Settled (p : Plan) (files : FileSystem) (sources : List SourceFile) (b : Build) :
    Prop extends p.Grown files sources b where
  labelled : p.Labelled files sources b.graph
  filesAnalyzed_eq : b.filesAnalyzed = sources.countP fun f => (p.read files f).isOk
  fileErrors_eq : b.fileErrors.toList = sources.filterMap (p.errorOf? files)

theorem Plan.settled_after (hstandard : p.tools.resolvers = .standard) {sources : List SourceFile}
    (hnodup : (sources.map SourceFile.id).Nodup) (hsteps : ∀ f ∈ sources, f.steps ≠ [])
    (createdAt : Timestamp) :
    p.Settled files sources (p.after files sources { graph := { createdAt } }) where
  toGrown := grown_after (grown_nil p files createdAt) sources
  labelled :=
    have hsources : (([] ++ sources).map SourceFile.id).Nodup := hnodup
    labelled_after hstandard (labelled_nil p files createdAt) hsources hsteps
  filesAnalyzed_eq := (filesAnalyzed_after p files sources _).trans (Nat.zero_add _)
  fileErrors_eq := toList_fileErrors_after p files sources _

/-- What is told from the same files in another order is alike. -/
theorem Plan.Settled.alike {sources sources' : List SourceFile} {b b' : Build}
    (h : p.Settled files sources b) (h' : p.Settled files sources' b')
    (hperm : sources'.Perm sources) (hnodup : (sources.map SourceFile.id).Nodup) :
    Alike b b' := by
  have hedges : b'.graph.edges.toList.Perm b.graph.edges.toList := by
    rw [h.edges_eq hnodup, h'.edges_eq ((hperm.map _).nodup_iff.mpr hnodup)]
    exact hperm.flatMap_right _
  have hcontains : ∀ id, b'.graph.contains id = b.graph.contains id := by
    intro id
    rw [Bool.eq_iff_iff, h.contains_iff, h'.contains_iff]
    simp only [hperm.mem_iff]
  refine
    { sameStructure := ?_
      isolated_node? := h'.labelled.isolated_node?_eq h.labelled
        (sourceUnder?_of_perm hperm hnodup) hcontains
      neighbours := ?_
      edges := hedges
      filesAnalyzed_eq := ?_
      fileErrors := ?_ }
  · unfold sameStructure
    rw [nodeIds_eq_iff.mpr hcontains, edgeKeys_eq_of_perm (hedges.map Edge.key), beq_self_eq_true,
      beq_self_eq_true]
    rfl
  · intro id node node' hnode hnode'
    obtain ⟨-, hdependencies, hdependents⟩ := h.fresh.reflects_node hnode
    obtain ⟨-, hdependencies', hdependents'⟩ := h'.fresh.reflects_node hnode'
    rw [hdependencies, hdependencies', hdependents, hdependents']
    exact ⟨perm_eraseDups ((hedges.filter _).map _), perm_eraseDups ((hedges.filter _).map _)⟩
  · rw [h.filesAnalyzed_eq, h'.filesAnalyzed_eq, hperm.countP_eq]
  · rw [h.fileErrors_eq, h'.fileErrors_eq]
    exact hperm.filterMap _

theorem Discovered.steps_ne_nil {c : Configuration} {root : WrittenPath} {place : List FileName}
    {sources : List SourceFile} (h : Discovered c files root place sources) :
    ∀ f ∈ sources, f.steps ≠ [] := by
  obtain ⟨tree, htree, hsources⟩ := h.found
  exact (Configuration.pairwise_of_discover (FileTree.isOrdered_find? files.ordered htree)
    hsources).1

end Build

end DepGraph

import DepGraph.Proofs.Build.Directory

/-!
# What the graph of a directory says

Whatever the order in which nodes come into the graph of a directory, in the end there is a node for
every source file and for everything that an import of a parsed file stands for. The edges out of a
node can be told from the files under its identifier. Mostly that is one file: then its edges can be
told from the file alone, and the edges of the graph are these, file after file. Files whose names
are no text may be shown alike, and what they import comes together then.

- `firstPerTarget`: a node imports its targets once, and the first import counts.
- `toList_edges_foldl_addImport`: what adding the imports of a node does to the edges.
- `Plan.Grown`: what is built after some of the source files, with its step `Plan.grown_process`.
- `Plan.Describes`: what the files say about the graph of a directory.
- `ofDirectory_describes`: this is what the graph of a directory is.
- `edgesFrom_ofDirectory_alike`: files that are shown alike have their imports in common.
-/

namespace DepGraph

open DepGraph.Graph Run

/-! ## The imports of a node -/

/-- The first of the targets for each identifier. -/
def firstPerTarget : List (Resolution × Bool) → List (Resolution × Bool)
  | [] => []
  | target :: targets => target :: (firstPerTarget targets).filter (·.1.id != target.1.id)

theorem exists_mem_firstPerTarget_iff {targets : List (Resolution × Bool)} {id : String} :
    (∃ target ∈ firstPerTarget targets, target.1.id = id) ↔
      ∃ target ∈ targets, target.1.id = id := by
  induction targets with
  | nil => rfl
  | cons first targets ih =>
    rw [firstPerTarget, List.exists_mem_cons_iff, List.exists_mem_cons_iff, ← ih]
    by_cases heq : first.1.id = id
    · simp only [heq, true_or]
    · have hkept : ∀ target : Resolution × Bool, target.1.id = id →
          (target.1.id != first.1.id) = true :=
        fun target htarget => bne_iff_ne.mpr fun hsame => heq (hsame.symm.trans htarget)
      simp only [heq, false_or, List.mem_filter]
      constructor
      · rintro ⟨target, ⟨hmem, -⟩, hid⟩
        exact ⟨target, hmem, hid⟩
      · rintro ⟨target, hmem, hid⟩
        exact ⟨target, ⟨hmem, hkept target hid⟩, hid⟩

theorem exists_of_mem_firstPerTarget {targets : List (Resolution × Bool)}
    {target : Resolution × Bool} (h : target ∈ firstPerTarget targets) :
    ∃ first ∈ targets, first.1.id = target.1.id :=
  exists_mem_firstPerTarget_iff.mp ⟨target, h, rfl⟩

/-- Of what comes later, the first for each identifier counts that is new. -/
theorem firstPerTarget_append (earlier later : List (Resolution × Bool)) :
    firstPerTarget (earlier ++ later) = firstPerTarget earlier ++
      (firstPerTarget later).filter fun target => !earlier.any (·.1.id == target.1.id) := by
  induction earlier with
  | nil => simp [firstPerTarget]
  | cons first earlier ih =>
    rw [List.cons_append, firstPerTarget, ih, List.filter_append, List.filter_filter, firstPerTarget,
      List.cons_append]
    refine congrArg (first :: _ ++ ·) (List.filter_congr fun target _ => ?_)
    rw [List.any_cons, Bool.not_or, bne, BEq.comm]

/-- The edge from a node to what one of its imports stands for. -/
def importEdge (id : String) (target : Resolution × Bool) : Edge :=
  { source := id, target := target.1.id, kind := .imports, dynamic := target.2 }

namespace Graph

variable {g : Graph} {id : String}

theorem contains_addImport (g : Graph) (id : String) (target : Resolution × Bool)
    (other : String) :
    (g.addImport id target.1 target.2).contains other =
      (g.contains other || target.1.id == other) := by
  unfold addImport
  rw [contains_addEdge, contains_addNode]
  rfl

theorem consistent_addImport (h : g.Consistent) (id : String) (target : Resolution × Bool) :
    (g.addImport id target.1 target.2).Consistent :=
  consistent_addEdge (consistent_addNode h rfl rfl) _

theorem containsEdge_addNode (h : g.Consistent) {node : Node}
    (hdependencies : node.dependencies = #[]) (hdependents : node.dependents = #[])
    (key : EdgeKey) :
    (g.addNode node).containsEdge key = g.containsEdge key := by
  rw [Bool.eq_iff_iff, h.containsEdge_iff,
    (consistent_addNode h hdependencies hdependents).containsEdge_iff, edges_addNode]

/-- An import adds its edge, unless the target was imported before. -/
theorem toList_edges_addImport (h : g.Consistent) (hid : g.contains id = true)
    (target : Resolution × Bool) :
    (g.addImport id target.1 target.2).edges.toList = g.edges.toList ++
      if g.containsEdge (importEdge id target).key then [] else [importEdge id target] := by
  have haccepts : (g.addNode target.1.node).accepts (importEdge id target) =
      !g.containsEdge (importEdge id target).key := by
    unfold accepts
    rw [containsEdge_addNode h rfl rfl, contains_addNode, contains_addNode]
    simp [importEdge, Resolution.node, hid]
  show ((g.addNode target.1.node).addEdge (importEdge id target)).edges.toList = _
  rw [edges_addEdge, haccepts, edges_addNode]
  by_cases hknown : g.containsEdge (importEdge id target).key = true
  · simp [hknown]
  · simp [hknown]

/-- After an import, the edges to its target are taken. -/
theorem containsEdge_addImport (h : g.Consistent) (hid : g.contains id = true)
    (target other : Resolution × Bool) :
    (g.addImport id target.1 target.2).containsEdge (importEdge id other).key =
      (g.containsEdge (importEdge id other).key || other.1.id == target.1.id) := by
  have hkey : (importEdge id other).key = (importEdge id target).key ↔
      other.1.id = target.1.id := by
    simp [importEdge, Edge.key]
  have hnode : (g.addNode target.1.node).Consistent := consistent_addNode h rfl rfl
  have hsource : (g.addNode target.1.node).contains (importEdge id target).source = true := by
    rw [contains_addNode]
    exact Bool.or_eq_true_iff.mpr (.inl hid)
  have htarget : (g.addNode target.1.node).contains (importEdge id target).target = true := by
    rw [contains_addNode]
    exact Bool.or_eq_true_iff.mpr (.inr (beq_self_eq_true _))
  rw [Bool.eq_iff_iff, Bool.or_eq_true, beq_iff_eq, ← hkey, h.containsEdge_iff,
    (consistent_addImport h id target).containsEdge_iff, ← edges_addNode g target.1.node]
  exact mem_keys_addEdge_iff hnode hsource htarget _

theorem contains_foldl_addImport (g : Graph) (id : String) (targets : List (Resolution × Bool))
    (other : String) :
    (targets.foldl (fun g target => g.addImport id target.1 target.2) g).contains other = true ↔
      g.contains other = true ∨ ∃ target ∈ targets, target.1.id = other := by
  induction targets generalizing g with
  | nil => simp
  | cons target targets ih =>
    rw [List.foldl_cons, ih, contains_addImport, Bool.or_eq_true, beq_iff_eq,
      List.exists_mem_cons_iff, or_assoc]

/-- The imports of a node add one edge for each target that is new to it. -/
theorem toList_edges_foldl_addImport (h : g.Consistent) (hid : g.contains id = true)
    (targets : List (Resolution × Bool)) :
    (targets.foldl (fun g target => g.addImport id target.1 target.2) g).edges.toList =
      g.edges.toList ++ ((firstPerTarget targets).filter fun target =>
        !g.containsEdge (importEdge id target).key).map (importEdge id) := by
  induction targets generalizing g with
  | nil => simp [firstPerTarget]
  | cons target targets ih =>
    have hid' : (g.addImport id target.1 target.2).contains id = true := by
      rw [contains_addImport, hid, Bool.true_or]
    -- what is new after the first import was new before it and leads elsewhere
    have hnew : ((firstPerTarget targets).filter fun other =>
          !(g.addImport id target.1 target.2).containsEdge (importEdge id other).key) =
        ((firstPerTarget targets).filter (·.1.id != target.1.id)).filter fun other =>
          !g.containsEdge (importEdge id other).key := by
      rw [List.filter_filter]
      refine List.filter_congr fun other _ => ?_
      rw [containsEdge_addImport h hid, Bool.not_or]
      rfl
    rw [List.foldl_cons, ih (consistent_addImport h id target) hid', hnew,
      toList_edges_addImport h hid, firstPerTarget, List.filter_cons, List.append_assoc]
    by_cases hknown : g.containsEdge (importEdge id target).key = true
    · simp [hknown]
    · simp [hknown]

end Graph

/-- Where every part adds edges out of an identifier, the edges out of one are those that the parts
of this identifier add. -/
theorem filter_source_flatMap {α : Type} {parts : List α} {id : α → String} {edges : α → List Edge}
    (hsource : ∀ a ∈ parts, ∀ e ∈ edges a, e.source = id a) (out : String) :
    (parts.flatMap edges).filter (·.source == out) =
      (parts.filter (id · == out)).flatMap edges := by
  induction parts with
  | nil => rfl
  | cons first parts ih =>
    obtain ⟨hfirst, hrest⟩ := List.forall_mem_cons.mp hsource
    have hown : (edges first).filter (·.source == out) =
        if id first == out then edges first else [] := by
      have hcongr : (edges first).filter (·.source == out) =
          (edges first).filter fun _ => id first == out :=
        List.filter_congr fun e he => by rw [hfirst e he]
      rw [hcongr]
      cases id first == out <;> simp
    rw [List.flatMap_cons, List.filter_append, ih hrest, hown, List.filter_cons]
    cases id first == out <;> simp

/-- If only one element is taken of a list without repetition, it is left alone. -/
theorem filter_eq_singleton {α : Type} {l : List α} {q : α → Bool} {a : α} (hnodup : l.Nodup)
    (ha : a ∈ l) (hq : ∀ b ∈ l, q b = true ↔ b = a) : l.filter q = [a] := by
  classical
  have hcongr : l.filter q = l.filter (· = a) :=
    List.filter_congr fun b hb => Bool.eq_iff_iff.mpr (by simpa using hq b hb)
  rw [hcongr, List.filter_eq, List.count_eq_one_of_mem hnodup ha, List.replicate_one]

namespace Build

/-! ## The imports of a file -/

variable {p : Plan} {files : FileSystem}

/-- What a source file imports and exports, if it can be read and parsed. -/
def Plan.parsed? (p : Plan) (files : FileSystem) (f : SourceFile) : Option ParsedFile := do
  let source ← (p.read files f).toOption
  let parser ← p.tools.parsers.parserOf? (f.path p.rootPath)
  (parser.parse (f.path p.rootPath) source.text).toOption

/-- What the imports of a source file stand for, as far as it can be parsed and they can be
resolved, in the order in which they are written. -/
def Plan.targetsOf (p : Plan) (files : FileSystem) (f : SourceFile) : List (Resolution × Bool) :=
  match p.parsed? files f with
  | some parsed => targets p.tools (p.scope files) (f.path p.rootPath) parsed.imports
  | none => []

theorem Plan.exists_mem_targetsOf_iff {f : SourceFile} {id : String} :
    (∃ target ∈ p.targetsOf files f, target.1.id = id) ↔
      ∃ parsed, p.parsed? files f = some parsed ∧ ∃ i ∈ parsed.imports, ∃ target,
        p.tools.resolvers.resolve (p.scope files) i (f.path p.rootPath) = some target ∧
          target.id = id := by
  unfold targetsOf
  cases p.parsed? files f with
  | none => simp
  | some parsed =>
    simp only [targets, List.mem_filterMap, Option.map_eq_some_iff, Option.some.injEq,
      exists_eq_left']
    constructor
    · rintro ⟨_, ⟨i, hi, target, hresolve, rfl⟩, hid⟩
      exact ⟨i, hi, target, hresolve, hid⟩
    · rintro ⟨i, hi, target, hresolve, hid⟩
      exact ⟨(target, i.kind.isDynamic), ⟨i, hi, target, hresolve, rfl⟩, hid⟩

/-- The edges out of a source file. -/
def Plan.edgesOf (p : Plan) (files : FileSystem) (f : SourceFile) : List Edge :=
  (firstPerTarget (p.targetsOf files f)).map (importEdge f.id)

/-- What the source files under an identifier import, file after file. -/
def Plan.targetsUnder (p : Plan) (files : FileSystem) (sources : List SourceFile) (id : String) :
    List (Resolution × Bool) :=
  (sources.filter (·.id == id)).flatMap (p.targetsOf files)

theorem Plan.exists_mem_targetsUnder_iff {sources : List SourceFile} {id out : String} :
    (∃ target ∈ p.targetsUnder files sources out, target.1.id = id) ↔
      ∃ f ∈ sources, f.id = out ∧ ∃ target ∈ p.targetsOf files f, target.1.id = id := by
  unfold targetsUnder
  constructor
  · rintro ⟨target, hmem, hid⟩
    obtain ⟨f, hf, htarget⟩ := List.mem_flatMap.mp hmem
    obtain ⟨hf, hout⟩ := List.mem_filter.mp hf
    exact ⟨f, hf, beq_iff_eq.mp hout, target, htarget, hid⟩
  · rintro ⟨f, hf, hout, target, htarget, hid⟩
    exact ⟨target, List.mem_flatMap.mpr
      ⟨f, List.mem_filter.mpr ⟨hf, beq_iff_eq.mpr hout⟩, htarget⟩, hid⟩

theorem Plan.targetsUnder_concat (done : List SourceFile) (f : SourceFile) (id : String) :
    p.targetsUnder files (done ++ [f]) id =
      p.targetsUnder files done id ++ if f.id == id then p.targetsOf files f else [] := by
  unfold targetsUnder
  rw [List.filter_append, List.flatMap_append, List.filter_singleton]
  cases f.id == id <;> simp

/-- A file that shares its identifier with no other imports what is imported under it. -/
theorem Plan.targetsUnder_eq {sources : List SourceFile} (hnodup : sources.Nodup) {f : SourceFile}
    (hf : f ∈ sources) (honly : ∀ f' ∈ sources, f'.id = f.id → f' = f) :
    p.targetsUnder files sources f.id = p.targetsOf files f := by
  have hq : ∀ f' ∈ sources, (f'.id == f.id) = true ↔ f' = f := by
    intro f' hf'
    rw [beq_iff_eq]
    exact ⟨honly f' hf', congrArg _⟩
  rw [targetsUnder, filter_eq_singleton hnodup hf hq, List.flatMap_singleton]

/-- The graph with the node of a source file, and with what was measured of the file. -/
def withFile (scope : Scope) (f : SourceFile) (content : Except FileError SourceText) (g : Graph) :
    Graph :=
  match content with
  | .error _ => g.addNode (f.node scope.root)
  | .ok source => (g.addNode (f.node scope.root)).modifyNode f.id fun node =>
      { node with size := some source.size, lastModified := source.modified }

theorem consistent_withFile {g : Graph} (h : g.Consistent) (scope : Scope) (f : SourceFile)
    (content : Except FileError SourceText) : (withFile scope f content g).Consistent := by
  have hnode : (g.addNode (f.node scope.root)).Consistent := consistent_addNode h rfl rfl
  cases content with
  | error e => exact hnode
  | ok source =>
    have hlinks := keepsLinks_measure (some source.size) source.modified
    exact (rewritten_modifyNode _ f.id _).consistent (fun _ => hlinks.ite _) hnode

theorem edges_withFile (scope : Scope) (f : SourceFile) (content : Except FileError SourceText)
    (g : Graph) : (withFile scope f content g).edges = g.edges := by
  cases content with
  | error e => exact edges_addNode ..
  | ok source => exact edges_addNode ..

theorem contains_withFile (scope : Scope) (f : SourceFile) (content : Except FileError SourceText)
    (g : Graph) (id : String) :
    (withFile scope f content g).contains id = (g.contains id || f.id == id) := by
  cases content with
  | error e => exact contains_addNode ..
  | ok source => exact ((rewritten_modifyNode _ _ _).contains_eq id).trans (contains_addNode ..)

/-- Processing a file adds its node and then its imports, of which there are none unless it can be
read and parsed. -/
theorem Plan.graph_process (p : Plan) (files : FileSystem) (f : SourceFile) (b : Build) :
    (b.process p.tools (p.scope files) f (p.read files f)).1.graph =
      (p.targetsOf files f).foldl (fun g target => g.addImport f.id target.1 target.2)
        (withFile (p.scope files) f (p.read files f) b.graph) := by
  unfold process targetsOf parsed?
  cases p.read files f with
  | error e => rfl
  | ok source =>
    show ((_ : Build).addSource _ _ _ _).1.graph = _
    unfold addSource
    dsimp only [Plan.scope]
    cases hparser : p.tools.parsers.parserOf? (f.path p.rootPath) with
    | none => simp [withFile, Except.toOption]
    | some parser =>
      dsimp only
      cases hparsed : parser.parse (f.path p.rootPath) source.text with
      | error e => simp [hparsed, withFile, Except.toOption, fail]
      | ok parsed => simp [hparsed, withFile, Except.toOption]

/-! ## One file after another -/

/-- What is built after some of the source files. -/
structure Plan.Grown (p : Plan) (files : FileSystem) (done : List SourceFile) (b : Build) :
    Prop where
  fresh : b.graph.Fresh
  edgesOut_eq : ∀ id, edgesOut b.graph id =
    (firstPerTarget (p.targetsUnder files done id)).map (importEdge id)
  edges_eq : (done.map SourceFile.id).Nodup →
    b.graph.edges.toList = done.flatMap (p.edgesOf files)
  contains_iff : ∀ id, b.graph.contains id = true ↔
    ∃ f ∈ done, f.id = id ∨ ∃ target ∈ p.targetsOf files f, target.1.id = id

theorem Plan.grown_nil (p : Plan) (files : FileSystem) (createdAt : Timestamp) :
    p.Grown files [] { graph := { createdAt } } where
  fresh := fresh_empty createdAt
  edgesOut_eq _ := rfl
  edges_eq _ := rfl
  contains_iff := by simp [contains]

section Step

variable {done : List SourceFile} {b : Build} (h : p.Grown files done b)

include h

/-- The edges that there are say what was imported under the identifiers so far. -/
theorem Plan.Grown.mem_edgeKeys_iff {key : EdgeKey} :
    key ∈ b.graph.edgeKeys ↔ ∃ f ∈ done, ∃ id,
      (∃ target ∈ p.targetsOf files f, target.1.id = id) ∧ key = ⟨f.id, id, .imports⟩ := by
  rw [Graph.mem_edgeKeys_iff, List.mem_map]
  constructor
  · rintro ⟨e, he, rfl⟩
    have hout : e ∈ edgesOut b.graph e.source := List.mem_filter.mpr ⟨he, beq_self_eq_true _⟩
    rw [h.edgesOut_eq] at hout
    obtain ⟨target, htarget, heq⟩ := List.mem_map.mp hout
    obtain ⟨f, hf, hfid, htargets⟩ :=
      exists_mem_targetsUnder_iff.mp (exists_of_mem_firstPerTarget htarget)
    exact ⟨f, hf, target.1.id, htargets, by rw [← heq, hfid]; rfl⟩
  · rintro ⟨f, hf, id, htargets, rfl⟩
    obtain ⟨target, htarget, rfl⟩ := exists_mem_firstPerTarget_iff.mpr
      (exists_mem_targetsUnder_iff.mpr ⟨f, hf, rfl, htargets⟩)
    have hout : importEdge f.id target ∈ edgesOut b.graph f.id := by
      rw [h.edgesOut_eq]
      exact List.mem_map_of_mem htarget
    exact ⟨_, (List.mem_filter.mp hout).1, rfl⟩

/-- An import is taken if it was imported under the identifier before. -/
theorem Plan.Grown.containsEdge_withFile (f : SourceFile) (target : Resolution × Bool) :
    (withFile (p.scope files) f (p.read files f) b.graph).containsEdge
        (importEdge f.id target).key =
      (p.targetsUnder files done f.id).any (·.1.id == target.1.id) := by
  have hopened := consistent_withFile h.fresh.toConsistent (p.scope files) f (p.read files f)
  rw [Bool.eq_iff_iff, hopened.containsEdge_iff, edges_withFile, ← Graph.mem_edgeKeys_iff,
    h.mem_edgeKeys_iff, List.any_eq_true]
  simp only [beq_iff_eq]
  rw [exists_mem_targetsUnder_iff]
  constructor
  · rintro ⟨f', hf', id, htargets, heq⟩
    obtain rfl : target.1.id = id := congrArg EdgeKey.target heq
    exact ⟨f', hf', (congrArg EdgeKey.source heq).symm, htargets⟩
  · rintro ⟨f', hf', hid, htargets⟩
    exact ⟨f', hf', _, htargets, by rw [hid]; rfl⟩

/-- The next file adds the edges to those of its targets that are new under its identifier. -/
theorem Plan.Grown.toList_edges_process (f : SourceFile) :
    (b.process p.tools (p.scope files) f (p.read files f)).1.graph.edges.toList =
      b.graph.edges.toList ++ ((firstPerTarget (p.targetsOf files f)).filter fun target =>
        !(p.targetsUnder files done f.id).any (·.1.id == target.1.id)).map (importEdge f.id) := by
  have hopened := consistent_withFile h.fresh.toConsistent (p.scope files) f (p.read files f)
  have hcontains : (withFile (p.scope files) f (p.read files f) b.graph).contains f.id = true := by
    rw [contains_withFile, beq_self_eq_true, Bool.or_true]
  rw [graph_process, toList_edges_foldl_addImport hopened hcontains, edges_withFile]
  simp only [h.containsEdge_withFile]

/-- The next file adds its own edges. Nodes may have come before it, as targets, and edges out of
it, if another file has its identifier. -/
theorem Plan.grown_process (f : SourceFile) :
    p.Grown files (done ++ [f])
      (b.process p.tools (p.scope files) f (p.read files f)).1 := by
  refine
    { fresh := fresh_process h.fresh _ _ _ _
      edgesOut_eq := fun id => ?_
      edges_eq := fun hnodup => ?_
      contains_iff := fun id => ?_ }
  · have hedges := h.edgesOut_eq id
    unfold edgesOut at hedges ⊢
    rw [h.toList_edges_process, List.filter_append, hedges, targetsUnder_concat]
    by_cases hid : f.id = id
    · subst hid
      rw [if_pos (beq_self_eq_true _), firstPerTarget_append, List.map_append,
        List.filter_eq_self.mpr]
      intro e he
      obtain ⟨target, -, rfl⟩ := List.mem_map.mp he
      exact beq_self_eq_true _
    · rw [if_neg (by simpa using hid), List.append_nil, List.filter_eq_nil_iff.mpr, List.append_nil]
      intro e he
      obtain ⟨target, -, rfl⟩ := List.mem_map.mp he
      simpa [importEdge] using hid
  · rw [List.map_append, List.nodup_append] at hnodup
    have hnone : p.targetsUnder files done f.id = [] := by
      rw [targetsUnder, List.filter_eq_nil_iff.mpr, List.flatMap_nil]
      intro f' hf' hid
      exact hnodup.2.2 _ (List.mem_map_of_mem hf') _ List.mem_cons_self (beq_iff_eq.mp hid)
    rw [h.toList_edges_process, h.edges_eq hnodup.1, hnone, List.flatMap_append,
      List.flatMap_singleton, edgesOf]
    simp
  · rw [graph_process, contains_foldl_addImport, contains_withFile, Bool.or_eq_true, beq_iff_eq,
      h.contains_iff, or_assoc]
    simp only [List.mem_append, List.mem_singleton, or_and_right, exists_or, exists_eq_left]

end Step

theorem Plan.grown_after {done : List SourceFile} {b : Build} (h : p.Grown files done b)
    (sources : List SourceFile) :
    p.Grown files (done ++ sources) (p.after files sources b) := by
  -- the files that are done grow from the front of those that are left
  induction sources generalizing done b with
  | nil => simpa [after] using h
  | cons f sources ih =>
    rw [List.append_cons]
    exact ih (grown_process h f)

/-! ## The whole directory -/

/-- The graph is what the source files say. -/
structure Plan.Describes (p : Plan) (files : FileSystem) (sources : List SourceFile) (g : Graph) :
    Prop where
  /-- The nodes are the files and what the imports of parsed files stand for. -/
  mem_nodeIds_iff : ∀ id, id ∈ g.nodeIds ↔ (∃ f ∈ sources, f.id = id) ∨
    ∃ f ∈ sources, ∃ parsed, p.parsed? files f = some parsed ∧ ∃ i ∈ parsed.imports, ∃ target,
      p.tools.resolvers.resolve (p.scope files) i (f.path p.rootPath) = some target ∧
        target.id = id
  /-- Out of a parsed file that has its identifier alone leads an edge for each target. It is as the
  first import of the target says. -/
  edgesFrom_of_parsed : ∀ f ∈ sources, (∀ f' ∈ sources, f'.id = f.id → f' = f) →
    ∀ parsed, p.parsed? files f = some parsed →
      (g.edgesFrom f.id).toList = (firstPerTarget (parsed.imports.filterMap fun i =>
        (p.tools.resolvers.resolve (p.scope files) i (f.path p.rootPath)).map fun target =>
          (target, i.kind.isDynamic))).map (importEdge f.id)
  /-- Out of anything else leads no edge. -/
  edgesFrom_of_not_parsed : ∀ id, (∀ f ∈ sources, f.id = id → p.parsed? files f = none) →
    g.edgesFrom id = #[]
  /-- The files under one identifier have their imports in common, in the order of the files. -/
  edgesFrom_eq : ∀ id, (g.edgesFrom id).toList =
    (firstPerTarget (p.targetsUnder files sources id)).map (importEdge id)
  /-- If no two files have one identifier, the edges come file after file. -/
  edges_eq : (sources.map SourceFile.id).Nodup →
    g.edges.toList = sources.flatMap fun f => (g.edgesFrom f.id).toList

/-- What has grown out of all source files is what they say. -/
theorem Plan.Grown.describes {sources : List SourceFile} {b : Build}
    (h : p.Grown files sources b) (hnodup : sources.Nodup) :
    p.Describes files sources b.graph := by
  have hedges : ∀ id, (b.graph.edgesFrom id).toList =
      (firstPerTarget (p.targetsUnder files sources id)).map (importEdge id) := fun id => by
    rw [h.fresh.toList_edgesFrom, h.edgesOut_eq]
  have hown : ∀ f ∈ sources, (∀ f' ∈ sources, f'.id = f.id → f' = f) →
      (b.graph.edgesFrom f.id).toList = p.edgesOf files f := fun f hf honly => by
    rw [hedges, targetsUnder_eq hnodup hf honly, edgesOf]
  refine
    { mem_nodeIds_iff := fun id => ?_
      edgesFrom_of_parsed := fun f hf honly parsed hparsed => ?_
      edgesFrom_of_not_parsed := fun id hid => ?_
      edgesFrom_eq := hedges
      edges_eq := fun hids => ?_ }
  · simp only [Graph.mem_nodeIds_iff, h.contains_iff, and_or_left, exists_or,
      exists_mem_targetsOf_iff]
  · rw [hown f hf honly, edgesOf, targetsOf, hparsed]
    rfl
  · have hnone : p.targetsUnder files sources id = [] := by
      rw [targetsUnder, List.flatMap_eq_nil_iff]
      intro f hf
      obtain ⟨hf, hfid⟩ := List.mem_filter.mp hf
      rw [targetsOf, hid f hf (beq_iff_eq.mp hfid)]
    rw [← Array.toList_eq_nil_iff, hedges, hnone]
    rfl
  · rw [h.edges_eq hids]
    exact List.flatMap_congr fun f hf =>
      (hown f hf fun f' hf' heq => List.inj_on_of_nodup_map hids hf' hf heq).symm

/-- Two scripts that import each other, one of them twice, and a file that is no text. -/
def mutualImports : FileSystem :=
  let scripts := (({} : FileSystem).write [.named "a.js"]
    { bytes := "import(\"./b\"); import \"./b\"; import \"./gone\"".toUTF8 }).write
    [.named "b.js"] { bytes := "import \"./a\"".toUTF8 }
  scripts.write [.named "c.js"] { bytes := ⟨#[0xff]⟩ }

theorem discovered_mutualImports : Discovered {} mutualImports "/" []
    [⟨[.named "a.js"]⟩, ⟨[.named "b.js"]⟩, ⟨[.named "c.js"]⟩] :=
  discovered_of_toOption (by decide +kernel) (FileTree.find?_nil _) (by decide +kernel)

/-- Two scripts that are shown alike, and the scripts that they import. -/
def alikeScripts : FileSystem :=
  let scripts := (({} : FileSystem).write [.garbled] { bytes := "import \"./a\"".toUTF8 }).write
    [.garbledAlike] { bytes := "import(\"./a\"); import \"./b\"".toUTF8 }
  (scripts.write [.named "a.js"] { bytes := .empty }).write [.named "b.js"] { bytes := .empty }

theorem discovered_alikeScripts : Discovered {} alikeScripts "/" []
    [⟨[.named "a.js"]⟩, ⟨[.named "b.js"]⟩, ⟨[.garbled]⟩, ⟨[.garbledAlike]⟩] :=
  discovered_of_toOption (by decide +kernel) (FileTree.find?_nil _) (by decide +kernel)

end Build

end DepGraph

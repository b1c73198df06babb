import DepGraph.Proofs.Build.Meaning
import DepGraph.Proofs.Run.Reporting

/-!
# Reading beforehand

The files of a directory may be read one by one, or all of them beforehand. Readings are finished in
any order, but each is kept under the place of its file, and the files are processed in the order in
which they were found. So the graph comes out the same, and so do the events.

- `Plan.yields_readAll`: a reading is found under the place of its file, whenever it was finished.
- `Plan.reports`: the events of processing one file after another.
- `Plan.yields_processAll`, `Plan.yields_processRead`: both ways of processing do the same.
- `yields_ofDirectory`: what a run over a directory builds and reports, in whatever way it reads.
- `ofDirectory_beforehand`: reading beforehand changes nothing but the time of the graph.
-/

namespace DepGraph

open Run

/-! ## The time of a graph -/

/-- The graph, created at another time. -/
def Graph.stamped (createdAt : Timestamp) (g : Graph) : Graph :=
  { g with createdAt }

/-- What was built, created at another time. -/
def Build.stamped (createdAt : Timestamp) (b : Build) : Build :=
  { b with graph := b.graph.stamped createdAt }

namespace Graph

variable (createdAt : Timestamp)

theorem addNode_stamped (g : Graph) (node : Node) :
    (g.stamped createdAt).addNode node = (g.addNode node).stamped createdAt := by
  unfold addNode
  rw [show (g.stamped createdAt).contains node.id = g.contains node.id from rfl]
  split <;> rfl

theorem modifyNode_stamped (g : Graph) (id : String) (change : Node → Node) :
    (g.stamped createdAt).modifyNode id change = (g.modifyNode id change).stamped createdAt := rfl

theorem addEdge_stamped (g : Graph) (e : Edge) :
    (g.stamped createdAt).addEdge e = (g.addEdge e).stamped createdAt := by
  unfold addEdge
  rw [show (g.stamped createdAt).accepts e = g.accepts e from rfl]
  split <;> rfl

theorem addImport_stamped (g : Graph) (id : String) (target : Resolution) (dynamic : Bool) :
    (g.stamped createdAt).addImport id target dynamic =
      (g.addImport id target dynamic).stamped createdAt := by
  unfold addImport
  rw [addNode_stamped, addEdge_stamped]

theorem foldl_addImport_stamped (id : String) (targets : List (Resolution × Bool)) (g : Graph) :
    targets.foldl (fun g target => g.addImport id target.1 target.2) (g.stamped createdAt) =
      (targets.foldl (fun g target => g.addImport id target.1 target.2) g).stamped createdAt :=
  List.foldl_hom (stamped createdAt) fun g target =>
    addImport_stamped createdAt g id target.1 target.2

end Graph

namespace Build

theorem graph_stamped (createdAt : Timestamp) (b : Build) :
    (b.stamped createdAt).graph = b.graph.stamped createdAt := rfl

theorem addSource_stamped (createdAt : Timestamp) (tools : Toolbox) (scope : Scope)
    (f : SourceFile) (source : SourceText) (b : Build) :
    (b.stamped createdAt).addSource tools scope f source =
      ((b.addSource tools scope f source).1.stamped createdAt,
        (b.addSource tools scope f source).2) := by
  have hlinked := Graph.foldl_addImport_stamped createdAt f.id
  unfold addSource
  dsimp only
  cases tools.parsers.parserOf? (f.path scope.root) with
  | none => rfl
  | some parser =>
    dsimp only
    cases parser.parse (f.path scope.root) source.text with
    | error e => rfl
    | ok parsed =>
      dsimp only
      rw [graph_stamped, Graph.modifyNode_stamped, hlinked]
      rfl

/-- Nothing that is done with a file depends on the time of the graph. -/
theorem process_stamped (createdAt : Timestamp) (tools : Toolbox) (scope : Scope) (f : SourceFile)
    (content : Except FileError SourceText) (b : Build) :
    (b.stamped createdAt).process tools scope f content =
      ((b.process tools scope f content).1.stamped createdAt,
        (b.process tools scope f content).2) := by
  have hopened : { b.stamped createdAt with
        graph := (b.stamped createdAt).graph.addNode (f.node scope.root) } =
      { b with graph := b.graph.addNode (f.node scope.root) }.stamped createdAt := by
    unfold Build.stamped
    rw [Graph.addNode_stamped]
  unfold process
  rw [hopened]
  cases content with
  | error e => rfl
  | ok source => exact addSource_stamped createdAt tools scope f source _

variable {σ : Type} {s : Surroundings σ} {files : FileSystem}

/-! ## Processing -/

/-- The events of processing source files one after another, if the files stay as they are. -/
def Plan.reports (p : Plan) (files : FileSystem) : List SourceFile → Build → List Event
  | [], _ => []
  | f :: rest, b =>
    let (b, event) := b.process p.tools (p.scope files) f (p.read files f)
    event :: p.reports files rest b

theorem Plan.yields_processOne (hs : s.Steady files) {p : Plan} {f : SourceFile}
    {content : FileSystem → Except FileError SourceText} (hcontent : content files = p.read files f)
    (b : Build) :
    Yields (p.processOne s f content b)
      (fun b' => b' = (b.process p.tools (p.scope files) f (p.read files f)).1)
      [(b.process p.tools (p.scope files) f (p.read files f)).2] := by
  refine yields_bind (yields_check hs.continues) fun _ _ => ?_
  refine yields_bind (yields_record s (.opened f)) fun _ _ => ?_
  refine yields_bind (yields_files hs.files_eq) ?_
  rintro _ rfl
  rw [hcontent]
  exact yields_bind (yields_record s (.reported _)) fun _ _ => yields_pure rfl

theorem Plan.yields_processAll (hs : s.Steady files) (p : Plan) (sources : List SourceFile)
    (b : Build) :
    Yields (p.processAll s sources b) (fun b' => b' = p.after files sources b)
      (p.reports files sources b) := by
  induction sources generalizing b with
  | nil => exact yields_pure rfl
  | cons f sources ih =>
    refine yields_bind (yields_processOne hs rfl b) ?_
    rintro _ rfl
    exact ih _

/-- If each file is found among the readings, processing them is processing the files. -/
theorem Plan.yields_processRead (hs : s.Steady files) {p : Plan} {readings : Plan.Readings}
    {sources : List (SourceFile × Nat)}
    (hread : ∀ source ∈ sources, readings[source.2]? = some (p.read files source.1)) (b : Build) :
    Yields (p.processRead s readings sources b)
      (fun b' => b' = p.after files (sources.map Prod.fst) b)
      (p.reports files (sources.map Prod.fst) b) := by
  induction sources generalizing b with
  | nil => exact yields_pure rfl
  | cons source sources ih =>
    have hcontent : p.contentAt readings source.2 source.1 = p.read files source.1 := by
      unfold contentAt
      rw [hread source List.mem_cons_self]
    refine yields_bind (yields_processOne hs hcontent b) ?_
    rintro _ rfl
    exact ih (fun other hother => hread other (List.mem_cons_of_mem _ hother)) _

/-! ## Reading -/

/-- Whenever the reading of a file was finished, it is found under the place of the file. Readings
report nothing. -/
theorem Plan.yields_readAll (hs : s.Steady files) (p : Plan) (sources : Array SourceFile)
    (order : List Nat) (readings : Plan.Readings) :
    Yields (p.readAll s sources order readings)
      (fun found => ∀ index f, sources[index]? = some f →
        found[index]? = if index ∈ order then some (p.read files f) else readings[index]?) [] := by
  -- what a later reading puts under the same place is the same, since the files stay as they are
  induction order generalizing readings with
  | nil => exact yields_pure fun index f _ => (if_neg List.not_mem_nil).symm
  | cons first order ih =>
    refine yields_bind (yields_record s (.finished first)) fun _ _ => ?_
    refine yields_bind (yields_check hs.continues) fun _ _ => ?_
    cases hfirst : sources[first]? with
    | none =>
      refine yields_mono (ih readings) fun found hfound index f hf => ?_
      have hother : index ≠ first := by
        rintro rfl
        exact nomatch hfirst.symm.trans hf
      rw [hfound index f hf]
      simp only [List.mem_cons, hother, false_or]
    | some g =>
      dsimp only
      refine yields_bind (yields_files hs.files_eq) ?_
      rintro _ rfl
      refine yields_mono (ih _) fun found hfound index f hf => ?_
      rw [hfound index f hf, Std.TreeMap.getElem?_insert]
      by_cases hindex : index = first
      · subst hindex
        obtain rfl : g = f := Option.some.inj (hfirst.symm.trans hf)
        simp
      · simp [hindex, Ne.symm hindex]

/-- If all readings are finished, every file is found under its place. -/
theorem Plan.yields_readAll_perm (hs : s.Steady files) (p : Plan) (sources : List SourceFile)
    {order : List Nat} (horder : order.Perm (List.range sources.length)) :
    Yields (p.readAll s sources.toArray order ∅)
      (fun found => ∀ (index : Nat) (f : SourceFile), sources[index]? = some f →
        found[index]? = some (p.read files f)) [] := by
  refine yields_mono (yields_readAll hs p sources.toArray order ∅) fun found hfound index f hf => ?_
  have hlt : index < sources.length := (List.getElem?_eq_some_iff.mp hf).1
  rw [hfound index f (by simpa using hf),
    if_pos (horder.mem_iff.mpr (List.mem_range.mpr hlt))]

/-! ## The directory -/

/-- What is built does not depend on the time, apart from the time itself. -/
theorem Plan.after_stamped (p : Plan) (createdAt : Timestamp) (sources : List SourceFile)
    (b : Build) :
    p.after files sources (b.stamped createdAt) = (p.after files sources b).stamped createdAt :=
  List.foldl_hom (stamped createdAt) fun b f => by rw [process_stamped]

theorem Plan.reports_stamped (p : Plan) (createdAt : Timestamp) (sources : List SourceFile)
    (b : Build) : p.reports files sources (b.stamped createdAt) = p.reports files sources b := by
  induction sources generalizing b with
  | nil => rfl
  | cons f sources ih =>
    rw [reports, process_stamped]
    exact congrArg _ (ih _)

/-- The readings of all files are finished, in whatever order. -/
def Reading.Complete : Reading → Prop
  | .inTurn => True
  | .beforehand order => ∀ count, (order count).Perm (List.range count)

/-- In whatever way the files are read, what is built and reported is the same. -/
theorem yields_processSources (hs : s.Steady files) (p : Plan) (sources : List SourceFile)
    {reading : Reading} (hreading : reading.Complete) :
    Yields (processSources p s sources reading)
      (fun b => ∃ createdAt, b = (p.after files sources {}).stamped createdAt)
      (p.reports files sources {}) := by
  cases reading with
  | inTurn =>
    refine yields_bind (yields_now s) fun createdAt _ => ?_
    have hall := Plan.yields_processAll hs p sources (Build.stamped createdAt {})
    rw [p.reports_stamped, p.after_stamped] at hall
    exact yields_mono hall fun b hb => ⟨createdAt, hb⟩
  | beforehand order =>
    refine yields_bind (Plan.yields_readAll_perm hs p sources (hreading sources.length)) ?_
    intro readings hreadings
    refine yields_bind (yields_now s) fun createdAt _ => ?_
    have hread : ∀ source ∈ sources.zipIdx, readings[source.2]? = some (p.read files source.1) :=
      fun source hmem => hreadings source.2 source.1 (List.mem_zipIdx_iff_getElem?.mp hmem)
    have hall := Plan.yields_processRead hs hread (Build.stamped createdAt {})
    rw [List.zipIdx_map_fst, p.reports_stamped, p.after_stamped] at hall
    exact yields_mono hall fun b hb => ⟨createdAt, hb⟩

variable {c : Configuration} {tools : Toolbox} {root : WrittenPath}

/-- A run over a directory whose source files can be found reports how many there are and processes
them. -/
theorem yields_ofDirectory (hs : s.Steady files) {place : List FileName}
    {sources : List SourceFile} (hdiscovered : Discovered c files root place sources)
    {reading : Reading} (hreading : reading.Complete) :
    Yields (ofDirectory c tools reading s root)
      (fun b => ∃ createdAt, b = (Plan.after ⟨c, tools, place⟩ files sources {}).stamped createdAt)
      (.discovered sources.length :: Plan.reports ⟨c, tools, place⟩ files sources {}) := by
  intro session
  obtain ⟨b, after, hreturns, hb, hevents⟩ := yields_processSources hs ⟨c, tools, place⟩ sources
    hreading (session.take s (.reported (.discovered sources.length)))
  refine ⟨b, after, returns_ofDirectory_iff.mpr ⟨place, sources, ?_, hreturns⟩, hb, ?_⟩
  · rw [hs.files_eq]
    exact hdiscovered
  · rw [hevents, Session.events_take, List.append_assoc]
    rfl

/-- Either the source files are found, or every run over the directory fails at once, in the same
way. -/
theorem discovered_or_fails (hfiles : ∀ world, s.files world = files) (c : Configuration)
    (tools : Toolbox) (root : WrittenPath) :
    (∃ place sources, Discovered c files root place sources) ∨
      ∃ e, ∀ reading session,
        (ofDirectory c tools reading s root).run.run session = (.error e, session) := by
  cases h : discovery c files root with
  | error e =>
    refine .inr ⟨e, fun reading session => ?_⟩
    rw [run_ofDirectory, hfiles, h]
  | ok found => exact .inl ⟨found.1, found.2, discovery_eq_ok_iff.mp h⟩

end Build

end DepGraph

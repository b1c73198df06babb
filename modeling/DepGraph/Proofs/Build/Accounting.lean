import Mathlib.Algebra.GroupWithZero.Nat
import DepGraph.Proofs.Build.Meaning
import DepGraph.Proofs.Run.Reporting

/-!
# The account of a build

Processing a file may end in five ways: it cannot be read, it is no text, nothing parses it, it
cannot be parsed, or its imports are added. Each of them touches some of the counters, the errors,
the graph and the events. They stay in step, because there is a ledger behind them with one fate for
each file, and everything that a build shows is a sum over the ledger. Nothing of this depends on
the files staying as they are, or on the way in which they are read.

- `Fate`: what came of a source file.
- `Enters`: what processing a file adds, whichever way it ends; `exists_enters_process` is the step.
- `Accounts`: what is built is the sum of a ledger; `Accounts.concat` adds a file to it.
- `extends_processSources`: a run over the files keeps the ledger.
- `accounted_of_returns_ofDirectory`: what the ledger tells about the events, the errors, the
  counters and the edges of a directory.
-/

namespace DepGraph

open DepGraph.Graph Run

/-! ## What an event tells -/

namespace Event

/-- The path of the source file that the event is about. -/
def path? : Event → Option WrittenPath
  | .processed path _ | .failed path _ => some path
  | _ => none

/-- The path and the message of a failure. -/
def failure? : Event → Option (WrittenPath × String)
  | .failed path message => some (path, message)
  | _ => none

/-- The number of edges that came of a file: none, if it failed. -/
def edges : Event → Nat
  | .processed _ edges => edges
  | _ => 0

end Event

/-- Is the file passed over without having been read as text? -/
def FileError.isUnread (e : FileError) : Bool :=
  e.kind == .readFailed || e.kind == .encoding

namespace Build

/-! ## The fate of a file -/

/-- What came of a source file: the error for which it was passed over, or the edges that it
added. -/
inductive Fate where
  | failed (e : FileError)
  | processed (edges : List Edge)

namespace Fate

/-- The event that is reported of the file at the path. -/
def event (path : WrittenPath) : Fate → Event
  | .failed e => .failed e.path e.message
  | .processed edges => .processed path edges.length

/-- The error that is kept. -/
def error? : Fate → Option FileError
  | .failed e => some e
  | .processed _ => none

/-- The edges that are added. -/
def edges : Fate → List Edge
  | .failed _ => []
  | .processed edges => edges

/-- Does the file count as analyzed? -/
def isAnalyzed (fate : Fate) : Bool :=
  !fate.error?.any FileError.isUnread

/-- The fate is one of this file: the error names it, or the edges lead out of it. -/
def Fits (root : Path) (f : SourceFile) : Fate → Prop
  | .failed e => e.path = (f.path root).written
  | .processed edges => ∀ e ∈ edges, e.source = f.id

theorem failure?_event (path : WrittenPath) (fate : Fate) :
    (fate.event path).failure? = fate.error?.map fun e => (e.path, e.message) := by
  cases fate <;> rfl

theorem edges_event (path : WrittenPath) (fate : Fate) :
    (fate.event path).edges = fate.edges.length := by
  cases fate <;> rfl

theorem Fits.path?_event {root : Path} {f : SourceFile} {fate : Fate} (h : fate.Fits root f) :
    (fate.event (f.path root).written).path? = some (f.path root).written := by
  cases fate with
  | failed e => exact congrArg some h
  | processed edges => rfl

theorem Fits.source_eq {root : Path} {f : SourceFile} {fate : Fate} (h : fate.Fits root f)
    {e : Edge} (he : e ∈ fate.edges) : e.source = f.id := by
  cases fate with
  | failed => exact absurd he List.not_mem_nil
  | processed edges => exact h e he

end Fate

/-! ## One file -/

/-- What came of reading is about the file, and is no fault of a parser. -/
def IsReading (root : Path) (f : SourceFile) (content : Except FileError SourceText) : Prop :=
  ∀ e, content = .error e → e.path = (f.path root).written ∧ e.isUnread = true

theorem isReading_read (p : Plan) (files : FileSystem) (f : SourceFile) :
    IsReading p.rootPath f (p.read files f) := by
  intro e h
  unfold Plan.read FileSystem.readSource FileSystem.sourceText at h
  split at h
  · cases h
    exact ⟨rfl, rfl⟩
  · split at h
    · cases h
      exact ⟨rfl, rfl⟩
    · cases h

/-- Imports are added at the end, and all of them lead out of the node. -/
theorem exists_toList_edges_foldl_addImport (g : Graph) (id : String)
    (targets : List (Resolution × Bool)) :
    ∃ added, (targets.foldl (fun g target => g.addImport id target.1 target.2) g).edges.toList =
      g.edges.toList ++ added ∧ ∀ e ∈ added, e.source = id := by
  induction targets generalizing g with
  | nil => exact ⟨[], (List.append_nil _).symm, nofun⟩
  | cons target targets ih =>
    obtain ⟨added, hadded, hsource⟩ := ih (g.addImport id target.1 target.2)
    have hfirst : ∃ first, (g.addImport id target.1 target.2).edges.toList =
        g.edges.toList ++ first ∧ ∀ e ∈ first, e.source = id := by
      unfold addImport
      rw [edges_addEdge, edges_addNode]
      split
      · exact ⟨[importEdge id target], Array.toList_push, List.forall_mem_singleton.mpr rfl⟩
      · exact ⟨[], (List.append_nil _).symm, nofun⟩
    obtain ⟨first, hfirst, hsource'⟩ := hfirst
    refine ⟨first ++ added, ?_, List.forall_mem_append.mpr ⟨hsource', hsource⟩⟩
    rw [List.foldl_cons, hadded, hfirst, List.append_assoc]

/-- Processing a file ends in one of these ways. A file without a parser is one without imports. -/
theorem process_cases (tools : Toolbox) (scope : Scope) (f : SourceFile)
    (content : Except FileError SourceText) (b : Build) :
    (∃ e, content = .error e ∧ b.process tools scope f content =
      ({ b with graph := withFile scope f content b.graph, fileErrors := b.fileErrors.push e },
        .failed e.path e.message)) ∨
    (∃ message, b.process tools scope f content =
      (⟨withFile scope f content b.graph, b.filesAnalyzed + 1,
          b.fileErrors.push ⟨(f.path scope.root).written, .parseFailed, message⟩⟩,
        .failed (f.path scope.root).written message)) ∨
    ∃ (targets : List (Resolution × Bool)) (linked : Graph),
      linked = targets.foldl (fun g target => g.addImport f.id target.1 target.2)
        (withFile scope f content b.graph) ∧
      b.process tools scope f content =
        (⟨linked, b.filesAnalyzed + 1, b.fileErrors⟩, .processed (f.path scope.root).written
          (linked.edgeCount - (withFile scope f content b.graph).edgeCount)) := by
  cases content with
  | error e => exact .inl ⟨e, rfl, rfl⟩
  | ok source =>
    refine .inr ?_
    simp only [process, addSource]
    cases tools.parsers.parserOf? (f.path scope.root) with
    | none => exact .inr ⟨[], _, rfl, by rw [List.foldl_nil, Nat.sub_self]; rfl⟩
    | some parser =>
      dsimp only
      cases parser.parse (f.path scope.root) source.text with
      | error e => exact .inl ⟨e.message, rfl⟩
      | ok parsed => exact .inr ⟨_, _, rfl, rfl⟩

/-- What processing a file with this fate adds to what is built. -/
structure Enters (root : Path) (f : SourceFile) (fate : Fate) (b b' : Build) : Prop where
  fits : fate.Fits root f
  contains_self : b'.graph.contains f.id = true
  contains_of_contains : ∀ id, b.graph.contains id = true → b'.graph.contains id = true
  edges_eq : b'.graph.edges.toList = b.graph.edges.toList ++ fate.edges
  fileErrors_eq : b'.fileErrors.toList = b.fileErrors.toList ++ fate.error?.toList
  filesAnalyzed_eq : b'.filesAnalyzed = b.filesAnalyzed + if fate.isAnalyzed then 1 else 0

/-- A file has a fate, and what is reported of it is what is added. -/
theorem exists_enters_process (tools : Toolbox) (scope : Scope) {f : SourceFile}
    {content : Except FileError SourceText} (hcontent : IsReading scope.root f content)
    (b : Build) :
    ∃ fate, (b.process tools scope f content).2 = fate.event (f.path scope.root).written ∧
      Enters scope.root f fate b (b.process tools scope f content).1 := by
  have hself : (withFile scope f content b.graph).contains f.id = true := by
    rw [contains_withFile, beq_self_eq_true, Bool.or_true]
  have hother : ∀ id, b.graph.contains id = true →
      (withFile scope f content b.graph).contains id = true := fun id hid => by
    rw [contains_withFile, hid, Bool.true_or]
  have hedges := edges_withFile scope f content b.graph
  rcases process_cases tools scope f content b with
    ⟨e, herror, hprocess⟩ | ⟨message, hprocess⟩ | ⟨targets, linked, hlinked, hprocess⟩
  · -- the file was not read as text, and does not count
    obtain ⟨hpath, hunread⟩ := hcontent e herror
    rw [hprocess]
    exact ⟨.failed e, rfl,
      { fits := hpath
        contains_self := hself
        contains_of_contains := hother
        edges_eq := (congrArg _ hedges).trans (List.append_nil _).symm
        fileErrors_eq := Array.toList_push
        filesAnalyzed_eq := by simp [Fate.isAnalyzed, Fate.error?, hunread] }⟩
  · -- the file was read and counts, although it could not be parsed
    rw [hprocess]
    exact ⟨.failed ⟨(f.path scope.root).written, .parseFailed, message⟩, rfl,
      { fits := rfl
        contains_self := hself
        contains_of_contains := hother
        edges_eq := (congrArg _ hedges).trans (List.append_nil _).symm
        fileErrors_eq := Array.toList_push
        filesAnalyzed_eq := rfl }⟩
  · -- the number that is reported is a difference, and the graph has only grown
    obtain ⟨added, hadded, hsource⟩ :=
      exists_toList_edges_foldl_addImport (withFile scope f content b.graph) f.id targets
    rw [← hlinked] at hadded
    have hcount : linked.edgeCount - (withFile scope f content b.graph).edgeCount =
        added.length := by
      rw [edgeCount, edgeCount, ← Array.length_toList, hadded, List.length_append,
        Array.length_toList, Nat.add_sub_cancel_left]
    have hcontains : ∀ id, (withFile scope f content b.graph).contains id = true →
        linked.contains id = true := fun id hid =>
      hlinked ▸ (contains_foldl_addImport ..).mpr (.inl hid)
    rw [hprocess, hcount]
    exact ⟨.processed added, rfl,
      { fits := hsource
        contains_self := hcontains _ hself
        contains_of_contains := fun id hid => hcontains id (hother id hid)
        edges_eq := hadded.trans (congrArg (· ++ added) (congrArg _ hedges))
        fileErrors_eq := (List.append_nil _).symm
        filesAnalyzed_eq := rfl }⟩

/-! ## The ledger -/

/-- What is built is the sum of what came of the files. -/
structure Accounts (root : Path) (ledger : List (SourceFile × Fate)) (b : Build) : Prop where
  fits : ∀ entry ∈ ledger, entry.2.Fits root entry.1
  contains : ∀ entry ∈ ledger, b.graph.contains entry.1.id = true
  edges_eq : b.graph.edges.toList = ledger.flatMap fun entry => entry.2.edges
  fileErrors_eq : b.fileErrors.toList = ledger.filterMap fun entry => entry.2.error?
  filesAnalyzed_eq : b.filesAnalyzed = ledger.countP fun entry => entry.2.isAnalyzed

variable {σ : Type} {s : Surroundings σ} {session session' : Session σ} {root : Path}
  {ledger : List (SourceFile × Fate)} {b b' : Build}

theorem accounts_nil (root : Path) (createdAt : Timestamp) :
    Accounts root [] { graph := { createdAt } } where
  fits := nofun
  contains := nofun
  edges_eq := rfl
  fileErrors_eq := rfl
  filesAnalyzed_eq := rfl

theorem Accounts.concat (h : Accounts root ledger b) {f : SourceFile} {fate : Fate}
    (hfate : Enters root f fate b b') : Accounts root (ledger ++ [(f, fate)]) b' where
  fits := List.forall_mem_append.mpr ⟨h.fits, List.forall_mem_singleton.mpr hfate.fits⟩
  contains := List.forall_mem_append.mpr
    ⟨fun entry hentry => hfate.contains_of_contains _ (h.contains entry hentry),
      List.forall_mem_singleton.mpr hfate.contains_self⟩
  edges_eq := by
    rw [hfate.edges_eq, h.edges_eq, List.flatMap_append, List.flatMap_singleton]
  fileErrors_eq := by
    rw [hfate.fileErrors_eq, h.fileErrors_eq, List.filterMap_append, List.filterMap_cons]
    cases fate.error? <;> rfl
  filesAnalyzed_eq := by
    rw [hfate.filesAnalyzed_eq, h.filesAnalyzed_eq, List.countP_append, List.countP_singleton]

/-- The events of the files in a ledger. -/
def eventsOf (root : Path) (ledger : List (SourceFile × Fate)) : List Event :=
  ledger.map fun entry => entry.2.event (entry.1.path root).written

/-! ## All files -/

/-- The run adds the files to the ledger, in order, and reports what came of them. -/
def Extends (root : Path) (ledger : List (SourceFile × Fate)) (session : Session σ)
    (sources : List SourceFile) (b' : Build) (session' : Session σ) : Prop :=
  ∃ later, later.map Prod.fst = sources ∧ session'.events = session.events ++ eventsOf root later ∧
    Accounts root (ledger ++ later) b'

theorem exists_accounts_processOne {p : Plan} (h : Accounts p.rootPath ledger b) {f : SourceFile}
    {content : FileSystem → Except FileError SourceText}
    (hcontent : ∀ files, IsReading p.rootPath f (content files))
    (hrun : Returns (p.processOne s f content b) session b' session') :
    ∃ fate, session'.events = session.events ++ eventsOf p.rootPath [(f, fate)] ∧
      Accounts p.rootPath (ledger ++ [(f, fate)]) b' := by
  obtain ⟨-, files, -, rfl, rfl⟩ := Plan.returns_processOne_iff.mp hrun
  obtain ⟨fate, hevent, henters⟩ :=
    exists_enters_process p.tools (p.scope files) (hcontent files) b
  refine ⟨fate, ?_, h.concat henters⟩
  rw [hevent, Session.events_take, Session.events_take, List.append_assoc]
  rfl

/-- One file after another: what is left is added to the ledger that there is by then. -/
theorem extends_cons {f : SourceFile} {fate : Fate} {sources : List SourceFile}
    {between : Session σ}
    (hevents : between.events = session.events ++ eventsOf root [(f, fate)])
    (h : Extends root (ledger ++ [(f, fate)]) between sources b' session') :
    Extends root ledger session (f :: sources) b' session' := by
  obtain ⟨later, rfl, hlater, haccounts⟩ := h
  refine ⟨(f, fate) :: later, rfl, ?_, by simpa using haccounts⟩
  rw [hlater, hevents, List.append_assoc]
  rfl

theorem extends_processAll {p : Plan} {sources : List SourceFile}
    (h : Accounts p.rootPath ledger b)
    (hrun : Returns (p.processAll s sources b) session b' session') :
    Extends p.rootPath ledger session sources b' session' := by
  -- every file makes the ledger longer, so the induction is over all of them
  induction sources generalizing session ledger b with
  | nil =>
    obtain ⟨rfl, rfl⟩ := returns_pure_iff.mp hrun
    exact ⟨[], rfl, (List.append_nil _).symm, by simpa using h⟩
  | cons f sources ih =>
    obtain ⟨_, between, hfile, hrest⟩ := returns_bind_iff.mp hrun
    obtain ⟨fate, hevents, haccounts⟩ :=
      exists_accounts_processOne h (fun files => isReading_read p files f) hfile
    exact extends_cons hevents (ih haccounts hrest)

/-- What is kept of the readings under the place of a file is about this file. -/
def AreReadings (p : Plan) (sources : Array SourceFile) (readings : Plan.Readings) : Prop :=
  ∀ (index : Nat) (f : SourceFile), sources[index]? = some f → ∀ content,
    readings[index]? = some content → IsReading p.rootPath f content

theorem isReading_contentAt {p : Plan} {sources : Array SourceFile} {readings : Plan.Readings}
    (h : AreReadings p sources readings) {index : Nat} {f : SourceFile}
    (hf : sources[index]? = some f) : IsReading p.rootPath f (p.contentAt readings index f) := by
  unfold Plan.contentAt
  split
  · next content hcontent => exact h index f hf content hcontent
  · rintro _ ⟨⟩
    exact ⟨rfl, rfl⟩

/-- Readings are about their files, whenever they were finished, and report nothing. -/
theorem areReadings_of_returns_readAll {p : Plan} {sources : Array SourceFile} {order : List Nat}
    {readings found : Plan.Readings} (h : AreReadings p sources readings)
    (hrun : Returns (p.readAll s sources order readings) session found session') :
    AreReadings p sources found ∧ session'.events = session.events := by
  induction order generalizing session readings with
  | nil =>
    obtain ⟨rfl, rfl⟩ := returns_pure_iff.mp hrun
    exact ⟨h, rfl⟩
  | cons first order ih =>
    unfold Plan.readAll at hrun
    simp only [returns_bind_iff, returns_record_iff, returns_check_iff] at hrun
    obtain ⟨_, _, rfl, _, _, ⟨-, rfl⟩, hrun⟩ := hrun
    have hevents : (session.take s (.finished first)).events = session.events :=
      (Session.events_take ..).trans (List.append_nil _)
    rw [← hevents]
    cases hfirst : sources[first]? with
    | none =>
      rw [hfirst] at hrun
      exact ih h hrun
    | some g =>
      rw [hfirst] at hrun
      obtain ⟨files, _, hfiles, hrun⟩ := returns_bind_iff.mp hrun
      obtain ⟨-, rfl⟩ := returns_files_iff.mp hfiles
      refine ih ?_ hrun
      intro index f hf content hcontent
      rw [Std.TreeMap.getElem?_insert] at hcontent
      split at hcontent
      · next heq =>
        obtain rfl : first = index := Std.LawfulEqCmp.eq_of_compare heq
        obtain rfl : g = f := Option.some.inj (hfirst.symm.trans hf)
        obtain rfl := Option.some.inj hcontent
        exact isReading_read p files g
      · exact h index f hf content hcontent

theorem extends_processRead {p : Plan} {all : Array SourceFile} {readings : Plan.Readings}
    (hreadings : AreReadings p all readings) {sources : List (SourceFile × Nat)}
    (hsources : ∀ source ∈ sources, all[source.2]? = some source.1)
    (h : Accounts p.rootPath ledger b)
    (hrun : Returns (p.processRead s readings sources b) session b' session') :
    Extends p.rootPath ledger session (sources.map Prod.fst) b' session' := by
  induction sources generalizing session ledger b with
  | nil =>
    obtain ⟨rfl, rfl⟩ := returns_pure_iff.mp hrun
    exact ⟨[], rfl, (List.append_nil _).symm, by simpa using h⟩
  | cons source sources ih =>
    obtain ⟨hsource, hrest⟩ := List.forall_mem_cons.mp hsources
    obtain ⟨_, between, hfile, hrun⟩ := returns_bind_iff.mp hrun
    obtain ⟨fate, hevents, haccounts⟩ :=
      exists_accounts_processOne h (fun _ => isReading_contentAt hreadings hsource) hfile
    exact extends_cons hevents (ih hrest haccounts hrun)

/-- In whatever way the files are read, a run over them keeps the ledger. -/
theorem extends_processSources {p : Plan} {sources : List SourceFile} {reading : Reading}
    (hrun : Returns (processSources p s sources reading) session b' session') :
    Extends p.rootPath [] session sources b' session' := by
  cases reading with
  | inTurn =>
    obtain ⟨_, _, hnow, hrun⟩ := returns_bind_iff.mp hrun
    obtain ⟨-, rfl⟩ := returns_now_iff.mp hnow
    exact extends_processAll (accounts_nil ..) hrun
  | beforehand order =>
    obtain ⟨readings, before, hread, hrun⟩ := returns_bind_iff.mp hrun
    obtain ⟨_, _, hnow, hrun⟩ := returns_bind_iff.mp hrun
    obtain ⟨-, rfl⟩ := returns_now_iff.mp hnow
    -- nothing has been read at first, and nothing is reported until all has been
    have hnone : AreReadings p sources.toArray ∅ := fun _ _ _ _ h => nomatch h
    obtain ⟨hreadings, hevents⟩ := areReadings_of_returns_readAll hnone hread
    have hsources : ∀ source ∈ sources.zipIdx, sources.toArray[source.2]? = some source.1 :=
      fun source hmem => by simpa using List.mem_zipIdx_iff_getElem?.mp hmem
    have hextends := extends_processRead hreadings hsources (accounts_nil ..) hrun
    rw [List.zipIdx_map_fst] at hextends
    unfold Extends at hextends
    rwa [hevents] at hextends

/-! ## The directory -/

/-- Every file adds edges out of its identifier, so the edges out of one are those that the files
under it added. -/
theorem Accounts.edgesFrom_eq (h : Accounts root ledger b) (hconsistent : b.graph.Consistent)
    (id : String) : (b.graph.edgesFrom id).toList =
      (ledger.filter (·.1.id == id)).flatMap fun entry => entry.2.edges := by
  rw [hconsistent.toList_edgesFrom, edgesOut, h.edges_eq]
  exact filter_source_flatMap (fun entry hentry _ => (h.fits entry hentry).source_eq) id

/-- A file that has its identifier alone is alone under it. -/
theorem filter_id_eq_singleton (hnodup : (ledger.map Prod.fst).Nodup) {entry : SourceFile × Fate}
    (hentry : entry ∈ ledger) (honly : ∀ f ∈ ledger.map Prod.fst, f.id = entry.1.id → f = entry.1) :
    ledger.filter (·.1.id == entry.1.id) = [entry] := by
  refine filter_eq_singleton hnodup.of_map hentry fun other hother => ?_
  rw [beq_iff_eq]
  constructor
  · intro hid
    exact List.inj_on_of_nodup_map hnodup hother hentry
      (honly _ (List.mem_map_of_mem hother) hid)
  · rintro rfl
    rfl

/-- A file counts as analyzed, or could not be read as text. -/
theorem countP_isAnalyzed (ledger : List (SourceFile × Fate)) :
    (ledger.countP fun entry => entry.2.isAnalyzed) +
      (ledger.filterMap fun entry => entry.2.error?).countP FileError.isUnread = ledger.length := by
  rw [List.countP_filterMap,
    List.length_eq_countP_add_countP fun entry : SourceFile × Fate => entry.2.isAnalyzed]
  refine congrArg _ (List.countP_congr fun entry _ => ?_)
  unfold Fate.isAnalyzed
  cases entry.2.error? <;> simp

/-- **Every file is accounted for.** However a run over a directory reads the files, and whatever
happens to them meanwhile, if it returns, then it has reported how many source files there are and
one event for each of them, in order. The errors that it keeps are the failures among these events;
the files that count as analyzed and those that could not be read as text are all there are; a file
that failed has a node and adds no edge out of it; and the edges that were reported are the edges of
the graph, identifier by identifier and as a whole, and file by file where a file has its identifier
alone. -/
theorem accounted_of_returns_ofDirectory {c : Configuration} {tools : Toolbox} {root : WrittenPath}
    {reading : Reading}
    (h : Returns (ofDirectory c tools reading s root) session b session') :
    ∃ place sources reports, Discovered c (s.files session.world) root place sources ∧
      session'.events = session.events ++ .discovered sources.length :: reports ∧
      (reports.map Event.path? = sources.map fun f => some (f.path (.ofNames place)).written) ∧
      (b.fileErrors.toList.map fun e => (e.path, e.message)) =
        reports.filterMap Event.failure? ∧
      b.filesAnalyzed + b.fileErrors.toList.countP FileError.isUnread = sources.length ∧
      (reports.map Event.edges).sum = b.graph.edgeCount ∧
      (∀ id, (b.graph.edgesFrom id).size =
        (((sources.zip reports).filter (·.1.id == id)).map (·.2.edges)).sum) ∧
      ∀ f event, (f, event) ∈ sources.zip reports → b.graph.contains f.id = true ∧
        ((∀ f' ∈ sources, f'.id = f.id → f' = f) →
          (b.graph.edgesFrom f.id).size = event.edges) := by
  have hconsistent := (fresh_of_returns_ofDirectory h).toConsistent
  obtain ⟨place, sources, hdiscovered, hrun⟩ := returns_ofDirectory_iff.mp h
  obtain ⟨ledger, rfl, hevents, haccounts⟩ := extends_processSources hrun
  rw [List.nil_append] at haccounts
  refine ⟨place, _, eventsOf (.ofNames place) ledger, hdiscovered, ?_, ?_, ?_, ?_, ?_, ?_, ?_⟩
  · rw [hevents, Session.events_take, List.append_assoc]
    rfl
  · rw [eventsOf, List.map_map, List.map_map]
    exact List.map_congr_left fun entry hentry => (haccounts.fits entry hentry).path?_event
  · rw [haccounts.fileErrors_eq, eventsOf, List.map_filterMap, List.filterMap_map]
    exact List.filterMap_congr fun entry _ => (entry.2.failure?_event _).symm
  · rw [haccounts.filesAnalyzed_eq, haccounts.fileErrors_eq, countP_isAnalyzed, List.length_map]
  · rw [edgeCount, ← Array.length_toList, haccounts.edges_eq, List.length_flatMap, eventsOf,
      List.map_map]
    exact congrArg List.sum (List.map_congr_left fun entry _ => entry.2.edges_event _)
  · intro id
    rw [← Array.length_toList, haccounts.edgesFrom_eq hconsistent, List.length_flatMap, eventsOf,
      List.zip_map', List.filter_map, List.map_map]
    exact congrArg List.sum (List.map_congr_left fun entry _ => (entry.2.edges_event _).symm)
  · intro f event hmem
    rw [eventsOf, List.zip_map', List.mem_map] at hmem
    obtain ⟨⟨f, fate⟩, hentry, ⟨⟩⟩ := hmem
    refine ⟨haccounts.contains _ hentry, fun honly => ?_⟩
    rw [← Array.length_toList, haccounts.edgesFrom_eq hconsistent,
      filter_id_eq_singleton hdiscovered.nodup hentry honly, List.flatMap_singleton,
      fate.edges_event]

/-! ## A mixed tree -/

/-- Two scripts that import each other, one of them twice, a file that is no text, one that nothing
parses, one that cannot be parsed, and one that may have gone. -/
def mixed (gone : Bool) : FileSystem :=
  let scripts := (({} : FileSystem).write [.named "left.js"]
    { bytes := "import \"./right\"; import \"./right\"".toUTF8 }).write [.named "right.js"]
    { bytes := "import(\"./left\")".toUTF8 }
  let others := ((scripts.write [.named "noise.js"] { bytes := ⟨#[0xff]⟩ }).write
    [.named "notes.py"] { bytes := .empty }).write [.named "draft.ts"]
    { bytes := .empty }
  if gone then others else others.write [.named "brief.js"] { bytes := .empty }

/-- One of the files goes as soon as the files have been found. -/
def fading : Surroundings Bool where
  files gone := mixed gone
  isCancelled _ := false
  isExpired _ := false
  now _ := default
  advance
    | .reported (.discovered _), _ => true
    | _, gone => gone

/-- Tools that refuse one kind of scripts and do not know Python sources. -/
def picky : Toolbox where
  parsers := (ParserRegistry.empty.register .script).register
    { name := "refusal", extensions := ["ts"], parse := fun _ _ => .error .poisoned }

/-- Six files, of which one cannot be read, one is no text and one cannot be parsed. -/
theorem accounted_of_returns_ofDirectory_mixed :
    ∃ b session', Returns (ofDirectory {} picky .inTurn fading "/") ⟨false, #[]⟩ b session' ∧
      (b.filesAnalyzed == 4 && b.graph.edgeCount == 2 &&
        b.fileErrors.toList.map (fun e => (e.path.text, e.kind)) ==
          [("/brief.js", .readFailed), ("/draft.ts", .parseFailed), ("/noise.js", .encoding)]) =
        true ∧
      ∃ place sources reports, Discovered {} (mixed false) "/" place sources ∧
        session'.events = .discovered sources.length :: reports ∧
        b.filesAnalyzed + b.fileErrors.toList.countP FileError.isUnread = sources.length ∧
        (reports.map Event.edges).sum = b.graph.edgeCount := by
  obtain ⟨b, session', h, hcheck⟩ := exists_returns_of_any
    (ofDirectory {} picky .inTurn fading "/") ⟨false, #[]⟩
    (fun b => b.filesAnalyzed == 4 && b.graph.edgeCount == 2 &&
      b.fileErrors.toList.map (fun e => (e.path.text, e.kind)) ==
        [("/brief.js", .readFailed), ("/draft.ts", .parseFailed), ("/noise.js", .encoding)])
    (by decide +kernel)
  obtain ⟨place, sources, reports, hdiscovered, hevents, -, -, hcount, hsum, -⟩ :=
    accounted_of_returns_ofDirectory h
  exact ⟨b, session', h, hcheck, place, sources, reports, hdiscovered, hevents, hcount, hsum⟩

end Build

end DepGraph

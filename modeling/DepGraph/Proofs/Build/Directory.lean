import DepGraph.Build.Directory
import DepGraph.Proofs.Build.Fresh
import DepGraph.Proofs.Files.Walk
import DepGraph.Proofs.Run.Returning

/-!
# Runs that build the graph of a directory

A run over a directory finds the source files and processes one after the other, unless it is
interrupted. Where the files stay as they are, what it builds is a fold over the source files, and
the only thing that can keep it from returning is that there are none to be found.

- `Discovered`: the source files of the directory at a written path.
- `fresh_of_returns_ofDirectory`: whatever happens to the files, the graph comes out fresh.
- `Plan.after`: what is built by processing files that stay as they are.
- `Plan.filesAnalyzed_after`, `Plan.toList_fileErrors_after`: what is kept beside the graph.
- `eq_after_of_returns_ofDirectory`, `exists_returns_ofDirectory_iff`: the run builds this, and it
  returns exactly if the source files can be found.
-/

namespace DepGraph.Build

open DepGraph.Graph Run

variable {σ : Type} {s : Surroundings σ} {session session' : Session σ}

/-! ## One file -/

/-- Files are processed as they are when the file is opened. -/
theorem Plan.returns_processOne_iff {p : Plan} {f : SourceFile}
    {content : FileSystem → Except FileError SourceText} {b b' : Build} :
    Returns (p.processOne s f content b) session b' session' ↔
      s.Continues session.world ∧ ∃ files, s.files (session.take s (.opened f)).world = files ∧
        (b.process p.tools (p.scope files) f (content files)).1 = b' ∧
        (session.take s (.opened f)).take s
          (.reported (b.process p.tools (p.scope files) f (content files)).2) = session' := by
  unfold processOne
  simp only [returns_bind_iff, returns_check_iff, returns_record_iff, returns_files_iff,
    returns_report_iff, returns_pure_iff]
  constructor
  · rintro ⟨_, _, ⟨hcontinues, rfl⟩, _, _, rfl, files, _, ⟨hfiles, rfl⟩, _, _, rfl, rfl, rfl⟩
    exact ⟨hcontinues, files, hfiles, rfl, rfl⟩
  · rintro ⟨hcontinues, files, hfiles, rfl, rfl⟩
    exact ⟨(), _, ⟨hcontinues, rfl⟩, (), _, rfl, files, _, ⟨hfiles, rfl⟩, (), _, rfl, rfl, rfl⟩

/-- What every file keeps is kept by processing one, whatever comes of reading it. -/
theorem Plan.keeps_processOne {p : Plan} {P : Build → Prop}
    (hprocess : ∀ b scope f content, P b → P (b.process p.tools scope f content).1)
    {f : SourceFile} {content : FileSystem → Except FileError SourceText} {b b' : Build}
    (hb : P b) (h : Returns (p.processOne s f content b) session b' session') : P b' := by
  obtain ⟨-, files, -, rfl, -⟩ := returns_processOne_iff.mp h
  exact hprocess _ _ _ _ hb

/-! ## All files -/

theorem Plan.keeps_processAll {p : Plan} {P : Build → Prop}
    (hprocess : ∀ b scope f content, P b → P (b.process p.tools scope f content).1)
    {sources : List SourceFile} {b b' : Build} (hb : P b)
    (h : Returns (p.processAll s sources b) session b' session') : P b' := by
  induction sources generalizing session b with
  | nil =>
    obtain ⟨rfl, -⟩ := returns_pure_iff.mp h
    exact hb
  | cons f sources ih =>
    obtain ⟨between, _, hfile, hrest⟩ := returns_bind_iff.mp h
    exact ih (keeps_processOne hprocess hb hfile) hrest

theorem Plan.keeps_processRead {p : Plan} {P : Build → Prop}
    (hprocess : ∀ b scope f content, P b → P (b.process p.tools scope f content).1)
    {readings : Plan.Readings} {sources : List (SourceFile × Nat)} {b b' : Build} (hb : P b)
    (h : Returns (p.processRead s readings sources b) session b' session') : P b' := by
  induction sources generalizing session b with
  | nil =>
    obtain ⟨rfl, -⟩ := returns_pure_iff.mp h
    exact hb
  | cons source sources ih =>
    obtain ⟨between, _, hfile, hrest⟩ := returns_bind_iff.mp h
    exact ih (keeps_processOne hprocess hb hfile) hrest

/-- Nothing but an interruption keeps the processing of files from returning. -/
theorem Plan.succeeds_processAll (hs : ∀ world, s.Continues world) (p : Plan)
    (sources : List SourceFile) (b : Build) : Succeeds (p.processAll s sources b) := by
  induction sources generalizing b with
  | nil => exact succeeds_pure b
  | cons f sources ih =>
    refine succeeds_bind ?_ fun b => ih b
    refine succeeds_bind (succeeds_check hs) fun _ => ?_
    refine succeeds_bind (succeeds_record s _) fun _ => ?_
    refine succeeds_bind (succeeds_files s) fun _ => ?_
    exact succeeds_bind (succeeds_record s _) fun _ => succeeds_pure _

/-! ## The directory -/

/-- The source files of the directory at a written path, and the place of the directory. -/
structure Discovered (c : Configuration) (files : FileSystem) (root : WrittenPath)
    (place : List FileName) (sources : List SourceFile) : Prop where
  located : files.locate root = .ok place
  found : ∃ tree, files.tree.find? place = some tree ∧ c.discover tree = .ok sources

/-- No source file comes twice. -/
theorem Discovered.nodup {c : Configuration} {files : FileSystem} {root : WrittenPath}
    {place : List FileName} {sources : List SourceFile}
    (h : Discovered c files root place sources) : sources.Nodup := by
  obtain ⟨tree, htree, hsources⟩ := h.found
  exact Configuration.nodup_of_discover (FileTree.isOrdered_find? files.ordered htree) hsources

/-- There is one place and one list of source files to be found. -/
theorem Discovered.unique {c : Configuration} {files : FileSystem} {root : WrittenPath}
    {place place' : List FileName} {sources sources' : List SourceFile}
    (h : Discovered c files root place sources) (h' : Discovered c files root place' sources') :
    place = place' ∧ sources = sources' := by
  obtain rfl : place = place' := Except.ok.inj (h.located.symm.trans h'.located)
  obtain ⟨tree, htree, hsources⟩ := h.found
  obtain ⟨tree', htree', hsources'⟩ := h'.found
  obtain rfl : tree = tree' := Option.some.inj (htree.symm.trans htree')
  exact ⟨rfl, Except.ok.inj (hsources.symm.trans hsources')⟩

variable {c : Configuration} {tools : Toolbox} {root : WrittenPath}

/-- What can be computed to be found is found. -/
theorem discovered_of_toOption {files : FileSystem} {place : List FileName} {tree : FileTree}
    {sources : List SourceFile} (hplace : files.locate root = .ok place)
    (htree : files.tree.find? place = some tree)
    (hsources : (c.discover tree).toOption = some sources) :
    Discovered c files root place sources where
  located := hplace
  found := by
    refine ⟨tree, htree, ?_⟩
    cases hfound : c.discover tree with
    | error e =>
      rw [hfound] at hsources
      cases hsources
    | ok found =>
      rw [hfound] at hsources
      exact congrArg Except.ok (Option.some.inj hsources)

/-- What a run over a directory does once the source files are found. -/
def processSources (plan : Plan) (s : Surroundings σ) (sources : List SourceFile) :
    Reading → Run σ Build
  | .inTurn => do
    plan.processAll s sources { graph := { createdAt := ← Run.now s } }
  | .beforehand order => do
    let readings ← plan.readAll s sources.toArray (order sources.length) ∅
    plan.processRead s readings sources.zipIdx { graph := { createdAt := ← Run.now s } }

/-- What the search for the source files of a directory comes to: the place of the directory and its
source files, or why there are none. -/
def discovery (c : Configuration) (files : FileSystem) (root : WrittenPath) :
    Except Error (List FileName × List SourceFile) :=
  match files.locate root with
  | .error _ => .error (rootMissing root)
  | .ok place =>
    match files.tree.find? place with
    | none => .error (rootMissing root)
    | some tree => (c.discover tree).map fun sources => (place, sources)

theorem discovery_eq_ok_iff {files : FileSystem} {place : List FileName}
    {sources : List SourceFile} :
    discovery c files root = .ok (place, sources) ↔ Discovered c files root place sources := by
  unfold discovery
  constructor
  · intro h
    split at h
    · cases h
    · next hplace =>
      split at h
      · cases h
      · next tree htree =>
        cases hsources : c.discover tree with
        | error e => rw [hsources] at h; cases h
        | ok found =>
          rw [hsources] at h
          cases h
          exact ⟨hplace, tree, htree, hsources⟩
  · rintro ⟨hplace, tree, htree, hsources⟩
    rw [hplace]
    dsimp only
    rw [htree]
    dsimp only
    rw [hsources]
    rfl

/-- A run over a directory looks for the source files as they are at once. If it finds them, it
reports how many there are and goes on from there. -/
theorem run_ofDirectory (reading : Reading) (session : Session σ) :
    (ofDirectory c tools reading s root).run.run session =
      match discovery c (s.files session.world) root with
      | .error e => (.error e, session)
      | .ok (place, sources) => (processSources ⟨c, tools, place⟩ s sources reading).run.run
          (session.take s (.reported (.discovered sources.length))) := by
  have hfiles : (Run.files s).run.run session = (.ok (s.files session.world), session) := rfl
  unfold ofDirectory discovery
  rw [run_bind, hfiles]
  dsimp only
  cases (s.files session.world).locate root with
  | error => rfl
  | ok place =>
    dsimp only
    cases (s.files session.world).tree.find? place with
    | none => rfl
    | some tree =>
      dsimp only
      cases c.discover tree with
      | error => rfl
      | ok sources => cases reading <;> rfl

/-- A run over a directory that returns has found the source files, and has gone on from there. -/
theorem returns_ofDirectory_iff {reading : Reading} {b : Build} :
    Returns (ofDirectory c tools reading s root) session b session' ↔
      ∃ place sources, Discovered c (s.files session.world) root place sources ∧
        Returns (processSources ⟨c, tools, place⟩ s sources reading)
          (session.take s (.reported (.discovered sources.length))) b session' := by
  simp only [← discovery_eq_ok_iff]
  unfold Returns
  rw [run_ofDirectory]
  cases discovery c (s.files session.world) root with
  | error e =>
    constructor
    · exact fun h => nomatch congrArg Prod.fst h
    · rintro ⟨_, _, h, -⟩
      cases h
  | ok found =>
    obtain ⟨place, sources⟩ := found
    constructor
    · exact fun h => ⟨place, sources, rfl, h⟩
    · rintro ⟨_, _, ⟨⟩, h⟩
      exact h

/-- Whatever happens to the files meanwhile, the graph of a directory is in step and without
marks. -/
theorem fresh_of_returns_ofDirectory {reading : Reading} {b : Build}
    (h : Returns (ofDirectory c tools reading s root) session b session') : b.graph.Fresh := by
  obtain ⟨place, sources, -, h⟩ := returns_ofDirectory_iff.mp h
  have hprocess : ∀ (b : Build) (scope : Scope) (f : SourceFile)
      (content : Except FileError SourceText), b.graph.Fresh →
      (b.process tools scope f content).1.graph.Fresh :=
    fun b scope f content hb => fresh_process hb tools scope f content
  cases reading with
  | inTurn =>
    obtain ⟨_, _, -, h⟩ := returns_bind_iff.mp h
    exact Plan.keeps_processAll hprocess (fresh_empty _) h
  | beforehand order =>
    obtain ⟨readings, _, -, h⟩ := returns_bind_iff.mp h
    obtain ⟨_, _, -, h⟩ := returns_bind_iff.mp h
    exact Plan.keeps_processRead hprocess (fresh_empty _) h

/-! ## Files that stay as they are -/

/-- What is built by processing source files one after another, if the files stay as they are. -/
def Plan.after (p : Plan) (files : FileSystem) (sources : List SourceFile) (b : Build) : Build :=
  sources.foldl (fun b f => (b.process p.tools (p.scope files) f (p.read files f)).1) b

/-- The error that a source file adds, if it fails. -/
def Plan.errorOf? (p : Plan) (files : FileSystem) (f : SourceFile) : Option FileError :=
  match p.read files f with
  | .error e => some e
  | .ok source =>
    match p.tools.parsers.parserOf? (f.path p.rootPath) with
    | none => none
    | some parser =>
      match parser.parse (f.path p.rootPath) source.text with
      | .error e => some ⟨(f.path p.rootPath).written, .parseFailed, e.message⟩
      | .ok _ => none

theorem Plan.toList_fileErrors_process (p : Plan) (files : FileSystem) (f : SourceFile)
    (b : Build) :
    (b.process p.tools (p.scope files) f (p.read files f)).1.fileErrors.toList =
      b.fileErrors.toList ++ (p.errorOf? files f).toList := by
  unfold errorOf? process
  cases p.read files f with
  | error e => exact Array.toList_push
  | ok source =>
    show ((_ : Build).addSource _ _ _ _).1.fileErrors.toList = _
    unfold addSource
    dsimp only [Plan.scope]
    cases p.tools.parsers.parserOf? (f.path p.rootPath) with
    | none => exact (List.append_nil _).symm
    | some parser =>
      dsimp only
      cases parser.parse (f.path p.rootPath) source.text with
      | error e => exact Array.toList_push
      | ok parsed => exact (List.append_nil _).symm

theorem Plan.toList_fileErrors_after (p : Plan) (files : FileSystem) (sources : List SourceFile)
    (b : Build) :
    (p.after files sources b).fileErrors.toList =
      b.fileErrors.toList ++ sources.filterMap (p.errorOf? files) := by
  induction sources generalizing b with
  | nil => exact (List.append_nil _).symm
  | cons f sources ih =>
    refine (ih _).trans ?_
    rw [toList_fileErrors_process, List.append_assoc, List.filterMap_cons]
    cases p.errorOf? files f <;> rfl

theorem Plan.filesAnalyzed_after (p : Plan) (files : FileSystem) (sources : List SourceFile)
    (b : Build) :
    (p.after files sources b).filesAnalyzed =
      b.filesAnalyzed + sources.countP fun f => (p.read files f).isOk := by
  induction sources generalizing b with
  | nil => rfl
  | cons f sources ih =>
    refine (ih _).trans ?_
    rw [filesAnalyzed_process, List.countP_cons, Nat.add_assoc, Nat.add_comm (List.countP _ _)]

section Constant

variable {files : FileSystem} (hfiles : ∀ world, s.files world = files)

include hfiles

theorem Plan.eq_after_of_returns {p : Plan} {sources : List SourceFile} {b b' : Build}
    (h : Returns (p.processAll s sources b) session b' session') :
    b' = p.after files sources b := by
  induction sources generalizing session b with
  | nil =>
    obtain ⟨rfl, -⟩ := returns_pure_iff.mp h
    rfl
  | cons f sources ih =>
    obtain ⟨between, _, hfile, hrest⟩ := returns_bind_iff.mp h
    obtain ⟨-, _, rfl, rfl, -⟩ := returns_processOne_iff.mp hfile
    rw [hfiles] at hrest
    exact ih hrest

/-- A run over a directory builds what comes of processing its source files one after another. -/
theorem eq_after_of_returns_ofDirectory {b : Build}
    (h : Returns (ofDirectory c tools .inTurn s root) session b session') :
    ∃ place sources createdAt, Discovered c files root place sources ∧
      b = Plan.after ⟨c, tools, place⟩ files sources { graph := { createdAt } } := by
  obtain ⟨place, sources, hdiscovered, h⟩ := returns_ofDirectory_iff.mp h
  obtain ⟨_, _, -, h⟩ := returns_bind_iff.mp h
  rw [hfiles] at hdiscovered
  exact ⟨place, sources, _, hdiscovered, Plan.eq_after_of_returns hfiles h⟩

end Constant

/-- A run over a directory returns exactly if the source files can be found. -/
theorem exists_returns_ofDirectory_iff {files : FileSystem} (hs : s.Steady files)
    (session : Session σ) :
    (∃ b session', Returns (ofDirectory c tools .inTurn s root) session b session') ↔
      ∃ place sources, Discovered c files root place sources := by
  simp only [returns_ofDirectory_iff, hs.files_eq]
  constructor
  · rintro ⟨_, _, place, sources, hdiscovered, -⟩
    exact ⟨place, sources, hdiscovered⟩
  · rintro ⟨place, sources, hdiscovered⟩
    have hsucceeds : Succeeds (processSources ⟨c, tools, place⟩ s sources .inTurn) :=
      succeeds_bind (succeeds_now s) fun _ => Plan.succeeds_processAll hs.continues _ sources _
    obtain ⟨b, session', h⟩ := hsucceeds (session.take s (.reported (.discovered sources.length)))
    exact ⟨b, session', place, sources, hdiscovered, h⟩

end DepGraph.Build

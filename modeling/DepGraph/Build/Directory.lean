import DepGraph.Build.Basic
import DepGraph.Run.Session

/-!
# Building the graph of a directory

The source files of a directory are processed in the order of their discovery. They are read one by
one, or all of them beforehand, in whatever order the readings are finished. Before a file is
started, and whenever a reading is finished, the run may be stopped.

* `Plan.contentAt_insert`: a reading that was finished is found under the place of its file.
-/

namespace DepGraph.Build

variable {σ : Type}

/-- Everything that stays the same while the files are processed. -/
structure Plan where
  configuration : Configuration
  tools : Toolbox
  /-- The place of the root in the file system. -/
  root : List FileName

namespace Plan

/-- The path of the root. -/
def rootPath (p : Plan) : Path :=
  .ofNames p.root

/-- The scope in which imports are resolved, given the files. -/
def scope (p : Plan) (files : FileSystem) : Scope :=
  ⟨p.rootPath, files.isFile⟩

/-- What comes of reading a source file. -/
def read (p : Plan) (files : FileSystem) (f : SourceFile) : Except FileError SourceText :=
  files.readSource (f.path p.rootPath).written

/-- Processes a file, of which `content` tells what came of reading it. -/
def processOne (p : Plan) (s : Surroundings σ) (f : SourceFile)
    (content : FileSystem → Except FileError SourceText) (b : Build) : Run σ Build := do
  Run.check s
  Run.record s (.opened f)
  let files ← Run.files s
  let (b, event) := b.process p.tools (p.scope files) f (content files)
  Run.report s event
  return b

/-- Processes files one after another, each of which is read when its turn has come. -/
def processAll (p : Plan) (s : Surroundings σ) : List SourceFile → Build → Run σ Build
  | [], b => return b
  | f :: rest, b => do
    let b ← p.processOne s f (fun files => p.read files f) b
    p.processAll s rest b

/-! ## Reading beforehand -/

/-- What came of the readings that were finished, by the place of the file. -/
abbrev Readings := Std.TreeMap Nat (Except FileError SourceText)

/-- What came of reading the file at a place. -/
def contentAt (p : Plan) (readings : Readings) (index : Nat) (f : SourceFile) :
    Except FileError SourceText :=
  match readings[index]? with
  | some content => content
  | none => .error ⟨(f.path p.rootPath).written, .readFailed, "read task did not complete"⟩

/-- Reads files in the order in which the readings are finished. -/
def readAll (p : Plan) (s : Surroundings σ) (files : Array SourceFile) :
    List Nat → Readings → Run σ Readings
  | [], readings => return readings
  | index :: rest, readings => do
    Run.record s (.finished index)
    Run.check s
    match files[index]? with
    | none => p.readAll s files rest readings
    | some f =>
      let content := p.read (← Run.files s) f
      p.readAll s files rest (readings.insert index content)

/-- Processes files one after another that were read beforehand. -/
def processRead (p : Plan) (s : Surroundings σ) (readings : Readings) :
    List (SourceFile × Nat) → Build → Run σ Build
  | [], b => return b
  | (f, index) :: rest, b => do
    let b ← p.processOne s f (fun _ => p.contentAt readings index f) b
    p.processRead s readings rest b

end Plan

/-- How the files of a directory are read. -/
inductive Reading where
  /-- Each when its turn has come. -/
  | inTurn
  /-- All of them beforehand. The order in which the readings of so many files are finished is
  given. -/
  | beforehand (order : Nat → List Nat)

/-- The error of a run whose root directory is missing. -/
def rootMissing (root : WrittenPath) : Error :=
  .unreadable s!"scan root not found: {root.text}"

/-- Builds the graph of the directory at a written path. -/
def ofDirectory (c : Configuration) (tools : Toolbox) (reading : Reading) (s : Surroundings σ)
    (root : WrittenPath) : Run σ Build := do
  let files ← Run.files s
  let .ok place := files.locate root | throw (rootMissing root)
  let some tree := files.tree.find? place | throw (rootMissing root)
  let sources ← MonadExcept.ofExcept (c.discover tree)
  Run.report s (.discovered sources.length)
  let plan : Plan := ⟨c, tools, place⟩
  match reading with
  | .inTurn => plan.processAll s sources { graph := { createdAt := ← Run.now s } }
  | .beforehand order =>
    let readings ← plan.readAll s sources.toArray (order sources.length) ∅
    plan.processRead s readings sources.zipIdx { graph := { createdAt := ← Run.now s } }

theorem Plan.contentAt_insert (p : Plan) (readings : Plan.Readings) (index : Nat)
    (content : Except FileError SourceText) (f : SourceFile) :
    p.contentAt (readings.insert index content) index f = content := by
  simp [Plan.contentAt]

end DepGraph.Build

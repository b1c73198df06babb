import DepGraph.CommandLine.Reply
import Std.Time.DateTime.Timestamp

/-!
# The program

Takes the files that a request needs out of the surroundings of the program, and writes the reply.
Only the sources that the configuration selects are read; of other files it matters that they are
there.
-/

namespace DepGraph.Program

open DepGraph.CommandLine

/-- The time of day. -/
def present : IO Timestamp := do
  let nanoseconds := (← Std.Time.Timestamp.now).toNanosecondsSinceUnixEpoch.val
  return ⟨Int.fdiv nanoseconds 1000000000, (Int.fmod nanoseconds 1000000000).toNat⟩

/-- The place that a written path means in the current directory. -/
def placeOf (fs : FileSystem) (path : WrittenPath) : List FileName :=
  ((Path.ofNames fs.current).join (.ofWritten path)).resolved

/-- The written path to a place. -/
def textOf (place : List FileName) : String :=
  (Path.ofNames place).text

/-- What is at a place, with what the files hold if it is asked for. What cannot be seen is left
out. -/
partial def load (reads : Bool) (fs : FileSystem) (place : List FileName) : IO FileSystem := do
  let entry : IO.FS.DirEntry := ⟨textOf place, ""⟩
  try
    let metadata ← entry.root.metadata
    match metadata.type with
    | .dir =>
      let mut fs := fs.makeDirectory place
      for child in ← entry.root.readDir do
        if let some name := FileName.ofBytes? (WrittenPath.ofText child.fileName).bytes then
          fs ← load reads fs (place ++ [name])
      return fs
    | _ =>
      let bytes ← if reads then IO.FS.readBinFile (textOf place) else pure .empty
      let modified := metadata.modified
      return fs.write place ⟨bytes, some ⟨modified.sec, modified.nsec.toNat⟩⟩
  catch _ => return fs

/-- The source files that the options select. -/
def sources (o : AnalyzeOptions) (fs : FileSystem) : List (List FileName) :=
  match o.loadConfiguration fs, fs.locate o.path with
  | .ok c, .ok place =>
    match (fs.tree.find? place).map c.discover with
    | some (.ok files) => files.map fun f => place ++ f.steps
    | _ => []
  | _, _ => []

/-- The files that the options need. -/
def filesFor (o : AnalyzeOptions) (fs : FileSystem) : IO FileSystem := do
  let mut fs := fs
  unless o.manifestOnly do
    fs ← load false fs (placeOf fs o.path)
  let documents := (o.configuration.toList ++ o.manifest.toList).map WrittenPath.ofText ++
    [WrittenPath.join o.path "package.json"]
  for path in documents do
    fs ← load true fs (placeOf fs path)
  unless o.manifestOnly do
    for place in sources o fs do
      fs ← load true fs place
  return fs

/-- The surroundings of a run that nobody interrupts, except when it has no time at all. -/
def surroundings (now : Timestamp) (timeout : Option Nat) : Surroundings FileSystem where
  files := id
  isCancelled _ := false
  isExpired _ := timeout == some 0
  now _ := now
  advance _ fs := fs

/-- Waits until a task is done or the deadline has passed. -/
partial def await {α : Type} (task : Task α) (deadline : Option Nat) : IO (Option α) := do
  if ← IO.hasFinished task then return some task.get
  if deadline.any (· ≤ (← IO.monoMsNow)) then return none
  IO.sleep 2
  await task deadline

/-- The reply to a request. -/
def reply (request : Request) : IO Reply := do
  let start ← IO.monoMsNow
  let here := Path.ofText (← IO.currentDir).toString
  let empty : FileSystem := { current := here.resolved }
  let (files, timeout) ← match request with
    | .analyze options => pure (← filesFor options (empty.makeDirectory here.resolved),
        options.timeoutSeconds)
    | _ => pure (empty, none)
  let s := surroundings (← present) timeout
  let task := Task.spawn fun _ => request.outcome s files
  match ← await task (timeout.map fun seconds => start + 1000 * seconds) with
  | some outcome => return outcome.toReply ((← IO.monoMsNow) - start)
  | none => return (Failure.analysis .timedOut).reply

end DepGraph.Program

/-- The program. -/
def main (arguments : List String) : IO UInt32 := do
  let reply ← DepGraph.Program.reply (.ofArguments arguments)
  IO.print reply.output
  IO.eprint reply.complaint
  return reply.code.toUInt32

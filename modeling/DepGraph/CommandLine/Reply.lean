import DepGraph.CommandLine.Command
import DepGraph.CommandLine.Summary
import DepGraph.Export.Format

/-!
# Replies

What the program answers to a request: what it prints, what it complains about, and its exit code.
-/

namespace DepGraph.CommandLine

/-- What the program answers. -/
structure Reply where
  code : Nat := 0
  output : String := ""
  complaint : String := ""
  deriving Repr, DecidableEq

/-- Why an analysis cannot be had. -/
inductive Failure where
  | configuration (path : String)
  | analysis (error : Error)
  deriving Repr, DecidableEq

/-- The wording of the failure. -/
def Failure.message : Failure → String
  | .configuration path => s!"loading config {path}"
  | .analysis error => error.message

variable {σ : Type}

/-- The configuration that the options ask for. -/
def AnalyzeOptions.loadConfiguration (o : AnalyzeOptions) (files : FileSystem) :
    Except Failure Configuration := do
  let c ← match o.configuration with
    | none => .ok {}
    | some path => (files.readConfiguration path).mapError fun _ => .configuration path
  return { c with
    selection := { c.selection with
      development := c.selection.development || o.includeDevelopment
      peer := c.selection.peer || o.includePeer } }

/-- The format that the options ask for, if any. -/
def AnalyzeOptions.exportFormat (o : AnalyzeOptions) : Except Failure (Option ExportFormat) :=
  match o.format with
  | none => .ok none
  | some name => ((ExportFormat.ofName name).map some).mapError .analysis

/-- The analysis that the options ask for. Without a manifest, the one in the directory counts if
there is one. -/
def AnalyzeOptions.run (o : AnalyzeOptions) (a : Analyzer) (s : Surroundings σ) :
    Run σ Analysis := do
  match o.manifest, o.manifestOnly with
  | some file, true => a.analyzeManifestFile s file
  | some file, false => a.analyzeProject s o.path (← Analyzer.manifestAt s file)
  | none, _ =>
    let file := WrittenPath.join o.path "package.json"
    if (← Run.files s).isFileAt file then
      a.analyzeProject s o.path (← Analyzer.manifestAt s file)
    else a.analyzeDirectory s o.path

/-- What comes of a request: an answer, or an analysis that is to be written. -/
inductive Outcome where
  | answered (reply : Reply)
  | analyzed (format : Option ExportFormat) (analysis : Analysis)

/-- The analysis that the options ask for, with the format in which it is to be written. -/
def AnalyzeOptions.outcome (o : AnalyzeOptions) (s : Surroundings σ) (world : σ) :
    Except Failure Outcome := do
  let configuration ← o.loadConfiguration (s.files world)
  let format ← o.exportFormat
  let a ← ((o.run { configuration } s).run.run ⟨world, #[]⟩).1.mapError .analysis
  return .analyzed format a

/-- The answer when there is no analysis. -/
def Failure.reply (f : Failure) : Reply where
  code := 1
  complaint := s!"Error: {f.message}\n"

/-- What comes of a request. -/
def Request.outcome (r : Request) (s : Surroundings σ) (world : σ) : Outcome :=
  match r with
  | .introduce => .answered { output := introduction }
  | .showVersion => .answered { output := s!"depscope v{versionNumber}\n" }
  | .printVersion => .answered { output := s!"depscope {versionNumber}\n" }
  | .help topic => .answered { output := topic.text }
  | .misuse => .answered { code := 2, complaint := "error: the arguments are not valid\n" }
  | .analyze options =>
    match options.outcome s world with
    | .ok outcome => outcome
    | .error failure => .answered failure.reply

/-- The answer, given how long the analysis took. -/
def Outcome.toReply (milliseconds : Nat) : Outcome → Reply
  | .answered reply => reply
  | .analyzed (some format) a => { output := a.graph.export format }
  | .analyzed none a => { output := a.summary milliseconds }

theorem code_of_failure (f : Failure) : f.reply.code = 1 := rfl

end DepGraph.CommandLine

import DepGraph.CommandLine.Arguments

/-!
# Commands

What the arguments ask for: an introduction, the version, some help, or an analysis.
-/

namespace DepGraph.CommandLine

/-- The options of an analysis. -/
structure AnalyzeOptions where
  path : String := "."
  manifest : Option String := none
  /-- Is the manifest analyzed without a directory? -/
  manifestOnly : Bool := false
  configuration : Option String := none
  format : Option String := none
  includeDevelopment : Bool := false
  includePeer : Bool := false
  timeoutSeconds : Option Nat := none
  deriving Repr, DecidableEq

/-- What there is help about. -/
inductive Topic where
  | program
  | analyze
  | version
  deriving Repr, DecidableEq

/-- What the arguments ask for. -/
inductive Request where
  | introduce
  | showVersion
  | printVersion
  | help (topic : Topic)
  | analyze (options : AnalyzeOptions)
  | misuse
  deriving Repr, DecidableEq

/-! ## The options -/

/-- The number of seconds in a text. It may have a plus sign, and fits 64 bits. -/
def seconds? (text : String) : Option Nat :=
  let digits := match text.toList with
    | '+' :: digits => digits
    | digits => digits
  if digits.isEmpty || !digits.all Char.isDigit then none
  else (String.ofList digits).toNat?.filter (· < UInt64.size)

/-- The option that asks for help. -/
def helpSwitch : Switch := { long := "help", short := some 'h', stop := some .help }

/-- The option that asks for a report of what is going on. -/
def verboseSwitch : Switch := { long := "verbose", short := some 'v' }

/-- The options of the program. -/
def programGrammar : Grammar where
  switches :=
    [verboseSwitch, helpSwitch, { long := "version", short := some 'V', stop := some .version }]
  commands := ["analyze", "version", "help"]

/-- The options of a command without options of its own. -/
def plainGrammar : Grammar where
  switches := [verboseSwitch, helpSwitch]

/-- The options of an analysis. A path is not empty. -/
def analyzeGrammar : Grammar where
  switches :=
    [verboseSwitch, helpSwitch,
      { long := "path", short := some 'p', accepts := some (!·.isEmpty) },
      { long := "manifest", short := some 'm', accepts := some (!·.isEmpty) },
      { long := "manifest-only" },
      { long := "config", short := some 'c', accepts := some (!·.isEmpty) },
      { long := "format", short := some 'f', accepts := some fun _ => true },
      { long := "include-dev" },
      { long := "include-peer" },
      { long := "timeout-secs", accepts := some fun text => (seconds? text).isSome }]

/-! ## Reading a request -/

/-- What reading to no end asks for. -/
def Stop.request (topic : Topic) : Stop → Request
  | .help => .help topic
  | .version => .printVersion
  | .misuse => .misuse

/-- The options of an analysis that were given. A manifest can be analyzed alone only if there is
one. -/
def analyzeOptions? (given : Given) : Option AnalyzeOptions :=
  let value? (name : String) : Option String := given.lookup name
  let isGiven (name : String) : Bool := (value? name).isSome
  if isGiven "manifest-only" && !isGiven "manifest" then none
  else
    some
      { path := (value? "path").getD "."
        manifest := value? "manifest"
        manifestOnly := isGiven "manifest-only"
        configuration := value? "config"
        format := value? "format"
        includeDevelopment := isGiven "include-dev"
        includePeer := isGiven "include-peer"
        timeoutSeconds := (value? "timeout-secs").bind seconds? }

/-- The request of a command with its arguments. -/
def requestOf (command : String) (arguments : List String) : Request :=
  match command with
  | "analyze" =>
    match analyzeGrammar.read [] arguments with
    | .error stop => stop.request .analyze
    | .ok (given, _) => ((analyzeOptions? given).map .analyze).getD .misuse
  | "version" =>
    match plainGrammar.read [] arguments with
    | .error stop => stop.request .version
    | .ok _ => .showVersion
  | "help" =>
    match arguments with
    | [] => .help .program
    | ["analyze"] => .help .analyze
    | ["version"] => .help .version
    | _ => .misuse
  | _ => .misuse

/-- The request of the arguments of the program. -/
def Request.ofArguments (arguments : List String) : Request :=
  match programGrammar.read [] arguments with
  | .error stop => stop.request .program
  | .ok (_, none) => .introduce
  | .ok (_, some (command, rest)) => requestOf command rest

/-! ## Texts -/

/-- The version of the program. -/
def versionNumber : String := "0.1.0"

/-- The lines of a text. -/
def linesText (lines : List String) : String :=
  String.join (lines.map (· ++ "\n"))

/-- The introduction to the program. -/
def introduction : String :=
  linesText
    ["DepScope - Dependency Graph Analyzer",
      "Run 'depscope analyze' to analyze a project",
      "Run 'depscope --help' for more information"]

/-- The help about a topic. -/
def Topic.text : Topic → String
  | .program =>
    linesText
      ["Dependency graph analyzer: cycles, critical paths and exports",
        "",
        "Usage: depscope [OPTIONS] [COMMAND]",
        "",
        "Commands:",
        "  analyze  Analyze a source tree, a manifest, or both",
        "  version  Show version information",
        "  help     Print this message or the help of the given subcommand(s)",
        "",
        "Options:",
        "  -v, --verbose  Enable debug logging on stderr",
        "  -h, --help     Print help",
        "  -V, --version  Print version"]
  | .analyze =>
    linesText
      ["Analyze a source tree, a manifest, or both",
        "",
        "Usage: depscope analyze [OPTIONS]",
        "",
        "Options:",
        "  -p, --path <PATH>",
        "          Path to analyze (defaults to current directory) [default: .]",
        "  -v, --verbose",
        "          Enable debug logging on stderr",
        "  -m, --manifest <MANIFEST>",
        "          package.json to analyze; with --manifest-only the source tree is skipped",
        "      --manifest-only",
        "          Analyze the manifest alone",
        "  -c, --config <CONFIG>",
        "          JSON configuration file",
        "  -f, --format <FORMAT>",
        "          Export format: json, dot, mermaid or csv (summary report when omitted)",
        "      --include-dev",
        "          Include devDependencies",
        "      --include-peer",
        "          Include peerDependencies",
        "      --timeout-secs <TIMEOUT_SECS>",
        "          Abort after this many seconds",
        "  -h, --help",
        "          Print help"]
  | .version =>
    linesText
      ["Show version information",
        "",
        "Usage: depscope version [OPTIONS]",
        "",
        "Options:",
        "  -v, --verbose  Enable debug logging on stderr",
        "  -h, --help     Print help"]

end DepGraph.CommandLine

import DepGraph.Manifest.PackageFile
import DepGraph.Path

/-!
# Errors

Two tiers: an `Error` ends an analysis, and a `FileError` is about one source file, which the
analysis then passes over.
-/

namespace DepGraph

/-- Why an analysis ends without a result. -/
inductive Error where
  | manifestNotFound (path : WrittenPath)
  | malformedManifest (path : WrittenPath) (cause : ManifestError)
  | unreadable (message : String)
  | unsupportedFormat (name : String)
  | invalidPattern (pattern : String)
  | configuration (reason : String)
  | parser (reason : String)
  | cancelled
  | timedOut
  deriving Repr, DecidableEq

namespace Error

/-- What stands in a message for the reason why a text is no pattern. -/
def patternFaultText : String := "<glob error>"

/-- The wording of the error. -/
def message : Error → String
  | .manifestNotFound path => s!"manifest not found: {path.text}"
  | .malformedManifest path cause => s!"malformed manifest {path.text}: {cause.message}"
  | .unreadable message => s!"I/O error: {message}"
  | .unsupportedFormat name =>
    s!"unsupported export format: '{name}' (expected json, dot, mermaid or csv)"
  | .invalidPattern pattern => s!"invalid pattern '{pattern}': {patternFaultText}"
  | .configuration reason => s!"configuration error: {reason}"
  | .parser reason => s!"parser error: {reason}"
  | .cancelled => "analysis cancelled"
  | .timedOut => "analysis timed out"

/-- The error of an analysis whose manifest cannot be had. A file that is not there has an error of
its own, and one that cannot be read is no fault of the manifest. -/
def ofManifest (path : WrittenPath) : ManifestError → Error
  | .unreadable fault =>
    if fault.kind == .notFound then .manifestNotFound path else .unreadable fault.message
  | cause => .malformedManifest path cause

end Error

/-- What is wrong with a source file. -/
inductive FileErrorKind where
  | readFailed
  | encoding
  | parseFailed
  deriving Repr, DecidableEq

namespace FileErrorKind

/-- The name of the kind. -/
def name : FileErrorKind → String
  | .readFailed => "read-failed"
  | .encoding => "encoding"
  | .parseFailed => "parse-failed"

/-- The kind as shown to people. -/
def text : FileErrorKind → String
  | .readFailed => "read failed"
  | .encoding => "encoding error"
  | .parseFailed => "parse failed"

end FileErrorKind

/-- A source file that is passed over. -/
structure FileError where
  path : WrittenPath
  kind : FileErrorKind
  message : String
  deriving Repr, DecidableEq

/-- The error as shown to people. -/
def FileError.text (e : FileError) : String :=
  s!"{e.path.text}: {e.message} ({e.kind.text})"

end DepGraph

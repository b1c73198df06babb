import DepGraph.Configuration
import DepGraph.Files.System
import DepGraph.Text.Utf8

/-!
# Reading files

What a file holds, read as text, as source code, as a manifest or as a configuration. Paths stand in
errors as they were written.

* `size_of_readSource`: the size of a source file counts its bytes.
-/

namespace DepGraph

open DepGraph.Text

/-- The text of a source file with the size of the file in bytes. -/
structure SourceText where
  text : List Char
  size : Nat
  modified : Option Timestamp := none

namespace FileSystem

/-- The text of a file. -/
def readText (fs : FileSystem) (path : WrittenPath) : Except Fault String :=
  match fs.open? path with
  | .error fault => .error fault
  | .ok file =>
    match decode file.bytes.toList with
    | .error _ => .error .notText
    | .ok text => .ok (String.ofList text)

/-- The text of a source file that was opened, or why it has none. -/
def sourceText (path : WrittenPath) : Except Fault File → Except FileError SourceText
  | .error fault => .error ⟨path, .readFailed, fault.message⟩
  | .ok file =>
    match decode file.bytes.toList with
    | .error e => .error ⟨path, .encoding, e.message⟩
    | .ok text => .ok ⟨text, file.bytes.size, file.modified⟩

/-- The text of a source file. -/
def readSource (fs : FileSystem) (path : WrittenPath) : Except FileError SourceText :=
  sourceText path (fs.open? path)

/-- The manifest in a package file. -/
def readManifest (fs : FileSystem) (path : WrittenPath) : Except ManifestError Manifest :=
  match fs.readText path with
  | .error fault => .error (.unreadable fault)
  | .ok text => PackageFile.manifestOf text

/-- The valid configuration in a file. -/
def readConfiguration (fs : FileSystem) (path : WrittenPath) : Except Error Configuration :=
  match fs.readText path with
  | .error fault => .error (.unreadable fault.message)
  | .ok text =>
    match Configuration.ofText? text with
    | none => .error (.configuration (path.text ++ ": " ++ Json.faultText))
    | some c => c.check.map fun _ => c

theorem size_of_readSource {fs : FileSystem} {path : WrittenPath} {file : File} {source : SourceText}
    (hfile : fs.open? path = .ok file) (h : fs.readSource path = .ok source) :
    source.size = file.bytes.size := by
  unfold readSource sourceText at h
  rw [hfile] at h
  dsimp only at h
  split at h
  · simp at h
  · cases h
    rfl

end FileSystem

end DepGraph

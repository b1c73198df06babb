import DepGraph.Configuration
import DepGraph.Files.Tree

/-!
# Discovering source files

The source files of a tree are found on a walk through its directories, each in the order of the
names in it. The walk does not enter directories that are passed over, nor those that are too deep.

* `discover_of_patterns`: when the patterns can be read, the files of the walk that they select are
  discovered.
-/

namespace DepGraph

/-- A source file: the steps to it from the root of its tree. -/
structure SourceFile where
  steps : List FileName
  deriving DecidableEq

namespace SourceFile

/-- What is shown of steps, joined by slashes. -/
def idOf (steps : List FileName) : String :=
  "/".intercalate (steps.map FileName.text)

/-- The identifier of the file. -/
def id (f : SourceFile) : String :=
  idOf f.steps

end SourceFile

namespace FileTree

mutual

/-- The places of the files on a walk from `here` on. The walk takes no more than `limit` steps
down, and does not enter the directories that are passed over. -/
def walk (passedOver : List FileName → Bool) (limit : Option Nat) (here : List FileName) :
    FileTree → List (List FileName)
  | .file _ => [here]
  | .directory entries =>
    if limit == some 0 then [] else walkEntries passedOver (limit.map (· - 1)) here entries

/-- The places of the files on a walk through the entries of the directory `here`. -/
def walkEntries (passedOver : List FileName → Bool) (limit : Option Nat) (here : List FileName) :
    List (FileName × FileTree) → List (List FileName)
  | [] => []
  | (name, sub) :: rest =>
    let place := here ++ [name]
    (if sub.isDirectory && passedOver place then [] else walk passedOver limit place sub) ++
      walkEntries passedOver limit here rest

end

end FileTree

namespace Configuration

/-- Is a directory passed over? It is when it has one of the names, or when a pattern of excluded
files matches it. -/
def passesOver (c : Configuration) (excluded : Glob.PatternSet) (place : List FileName) : Bool :=
  place.getLast?.any (fun name => c.ignoredDirs.contains name.text) ||
    excluded.selects (SourceFile.idOf place)

/-- The source files of a tree that the patterns select, in the order of the walk. The root itself
is none. -/
def selectFiles (c : Configuration) (included excluded : Glob.PatternSet) (tree : FileTree) :
    List SourceFile :=
  let places := tree.walk (c.passesOver excluded) c.maxDepth []
  (places.filter fun place =>
    !place.isEmpty && included.selects (SourceFile.idOf place) &&
      !excluded.selects (SourceFile.idOf place)).map SourceFile.mk

/-- The source files of a tree. -/
def discover (c : Configuration) (tree : FileTree) : Except Error (List SourceFile) :=
  match c.includeSet with
  | .error e => .error e
  | .ok included =>
    match c.excludeSet with
    | .error e => .error e
    | .ok excluded => .ok (c.selectFiles included excluded tree)

theorem discover_of_patterns {c : Configuration} {included excluded : Glob.PatternSet}
    (hi : c.includeSet = .ok included) (he : c.excludeSet = .ok excluded) (tree : FileTree) :
    c.discover tree = .ok (c.selectFiles included excluded tree) := by
  simp [discover, hi, he]

end Configuration

end DepGraph

import DepGraph.Fault
import DepGraph.Files.Tree

/-!
# File systems

A file system is a tree of files with a current directory. Whoever follows a path step by step needs
a directory for every step, even for a dot and for a step up.

* `follow_names`: steps through names lead to what stands there.
* `isFile_ofNames`: a path through names leads to a file exactly when one stands at that place.
-/

namespace DepGraph

/-- A tree of files with a current directory. -/
structure FileSystem where
  tree : FileTree := default
  current : List FileName := []
  ordered : tree.IsOrdered := by exact FileTree.isOrdered_default

namespace FileSystem

/-! ## Changing -/

/-- The file system with a file at a place. -/
def write (fs : FileSystem) (place : List FileName) (file : File) : FileSystem where
  tree := fs.tree.put place (.file file)
  current := fs.current
  ordered := FileTree.isOrdered_put place fs.ordered (by simp [FileTree.IsOrdered])

/-- The file system with a directory at a place. What stands there stays. -/
def makeDirectory (fs : FileSystem) (place : List FileName) : FileSystem :=
  if (fs.tree.find? place).isSome then fs
  else
    { tree := fs.tree.put place default
      current := fs.current
      ordered := FileTree.isOrdered_put place fs.ordered FileTree.isOrdered_default }

/-- The file system without what stands at a place. -/
def remove (fs : FileSystem) (place : List FileName) : FileSystem where
  tree := fs.tree.erase place
  current := fs.current
  ordered := FileTree.isOrdered_erase place fs.ordered

/-! ## Following paths -/

/-- Is there a directory at a place? -/
def isDirectoryAt (fs : FileSystem) (place : List FileName) : Bool :=
  (fs.tree.find? place).any FileTree.isDirectory

/-- The place to which steps lead. A step may also stay where it is. -/
def follow (fs : FileSystem) (place : List FileName) :
    List (Option PathPart) → Except Fault (List FileName)
  | [] => .ok place
  | step :: rest =>
    if !fs.isDirectoryAt place then .error .notADirectory
    else
      match step with
      | none => fs.follow place rest
      | some .up => fs.follow place.dropLast rest
      | some (.name name) =>
        if (fs.tree.find? (place ++ [name])).isSome then fs.follow (place ++ [name]) rest
        else .error .missing

/-- The place to which the written path leads. -/
def locate (fs : FileSystem) (path : WrittenPath) : Except Fault (List FileName) :=
  if path.bytes.isEmpty then .error .missing
  else
    fs.follow (if path.isRooted then [] else fs.current) (path.components.map PathPart.ofWritten?)

/-- Does the path lead to a file? -/
def isFile (fs : FileSystem) (path : Path) : Bool :=
  match fs.follow (if path.isAbsolute then [] else fs.current) (path.parts.map some) with
  | .ok place => (fs.tree.file? place).isSome
  | .error _ => false

/-- Does the written path lead to a file? -/
def isFileAt (fs : FileSystem) (path : WrittenPath) : Bool :=
  match fs.locate path with
  | .ok place => (fs.tree.file? place).isSome
  | .error _ => false

/-! ## Reading -/

/-- The file to which the written path leads. -/
def open? (fs : FileSystem) (path : WrittenPath) : Except Fault File :=
  match fs.locate path with
  | .error fault => .error fault
  | .ok place =>
    match fs.tree.find? place with
    | some (.file f) => .ok f
    | some (.directory _) => .error .isADirectory
    | none => .error .missing

/-! ## Lemmas -/

theorem find?_append (t : FileTree) (place rest : List FileName) :
    t.find? (place ++ rest) = (t.find? place).bind (·.find? rest) := by
  induction place generalizing t with
  | nil => simp
  | cons name place ih =>
    rw [List.cons_append, FileTree.find?_cons, FileTree.find?_cons]
    cases t.child? name with
    | none => rfl
    | some sub => exact ih sub

theorem isDirectoryAt_of_find? {fs : FileSystem} {place : List FileName} {name : FileName}
    (h : (fs.tree.find? (place ++ [name])).isSome) : fs.isDirectoryAt place = true := by
  rw [find?_append] at h
  unfold isDirectoryAt
  cases hsub : fs.tree.find? place with
  | none => simp [hsub] at h
  | some sub =>
    cases sub with
    | file => simp [hsub, FileTree.find?_cons, FileTree.child?, FileTree.entries] at h
    | directory => rfl

theorem follow_names {fs : FileSystem} (names : List FileName) {place : List FileName}
    (h : (fs.tree.find? (place ++ names)).isSome) :
    fs.follow place (names.map fun name => some (.name name)) = .ok (place ++ names) := by
  induction names generalizing place with
  | nil => simp [follow]
  | cons name names ih =>
    rw [List.append_cons] at h ⊢
    have hstep : (fs.tree.find? (place ++ [name])).isSome := by
      rw [find?_append] at h
      cases hsub : fs.tree.find? (place ++ [name]) with
      | none => simp [hsub] at h
      | some => rfl
    simp only [List.map_cons, follow, isDirectoryAt_of_find? hstep, Bool.not_true, hstep,
      Bool.false_eq_true, if_false, if_true]
    exact ih h

theorem eq_append_of_follow {fs : FileSystem} (names : List FileName) {place last : List FileName}
    (h : fs.follow place (names.map fun name => some (.name name)) = .ok last) :
    last = place ++ names := by
  induction names generalizing place with
  | nil =>
    simp only [List.map_nil, follow, Except.ok.injEq] at h
    simp [h]
  | cons name names ih =>
    simp only [List.map_cons, follow] at h
    split at h
    · simp at h
    · split at h
      · rw [ih h]; simp
      · simp at h

theorem isFile_ofNames (fs : FileSystem) (names : List FileName) :
    fs.isFile (.ofNames names) = (fs.tree.file? names).isSome := by
  simp only [isFile, Path.ofNames, Path.isAbsolute, beq_self_eq_true, if_true, List.map_map]
  cases hfollow : fs.follow [] (names.map (some ∘ PathPart.name)) with
  | ok place =>
    have := eq_append_of_follow names hfollow
    simp [this]
  | error =>
    cases hfile : fs.tree.find? names with
    | none => simp [FileTree.file?, hfile]
    | some sub =>
      have := @follow_names fs names [] (by simp [hfile])
      rw [show (fun name => some (PathPart.name name)) = some ∘ PathPart.name from rfl] at this
      simp [hfollow] at this

end FileSystem

end DepGraph

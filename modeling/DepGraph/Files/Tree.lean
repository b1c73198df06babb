import DepGraph.Path
import DepGraph.Time.Timestamp

/-!
# Trees of files

A tree is a file or a directory, and a directory has its entries in the order of their names. A
place in a tree is the list of the names on the way to it.

* `find?_put`: what is put at a place stands there.
* `isOrdered_put`: putting a tree keeps the entries of every directory in order.
-/

namespace DepGraph

/-- A file: what it holds, and when it was last changed, if that is known. -/
structure File where
  bytes : ByteArray
  modified : Option Timestamp := none

/-- A tree of files. -/
inductive FileTree where
  | file (file : File)
  | directory (entries : List (FileName × FileTree))

instance : Inhabited FileTree := ⟨.directory []⟩

namespace FileTree

/-! ## Looking up -/

/-- Is the tree a directory? -/
def isDirectory : FileTree → Bool
  | .file _ => false
  | .directory _ => true

/-- The entries of a directory; a file has none. -/
def entries : FileTree → List (FileName × FileTree)
  | .file _ => []
  | .directory entries => entries

/-- The entry of a directory with the given name. -/
def child? (t : FileTree) (name : FileName) : Option FileTree :=
  (t.entries.find? fun entry => entry.1 == name).map (·.2)

/-- What stands at a place. -/
def find? (t : FileTree) : List FileName → Option FileTree
  | [] => some t
  | name :: place => (t.child? name).bind fun sub => sub.find? place

/-- The file at a place. -/
def file? (t : FileTree) (place : List FileName) : Option File :=
  match t.find? place with
  | some (.file f) => some f
  | _ => none

/-! ## Order -/

/-- Does the first name come before the second, byte by byte? -/
def before (a b : FileName) : Bool :=
  a.bytes < b.bytes

mutual

/-- Are the entries of every directory in the order of their names, each name once? -/
def IsOrdered : FileTree → Prop
  | .file _ => True
  | .directory entries => entries.Pairwise (fun a b => before a.1 b.1) ∧ AllOrdered entries

/-- Are the trees of all entries in order? -/
def AllOrdered : List (FileName × FileTree) → Prop
  | [] => True
  | (_, sub) :: rest => sub.IsOrdered ∧ AllOrdered rest

end

/-! ## Changing -/

/-- The entries with one of them replaced, or added in its place. -/
def setEntry (name : FileName) (sub : FileTree) :
    List (FileName × FileTree) → List (FileName × FileTree)
  | [] => [(name, sub)]
  | (other, t) :: rest =>
    if name = other then (name, sub) :: rest
    else if before name other then (name, sub) :: (other, t) :: rest
    else (other, t) :: setEntry name sub rest

/-- The tree with another one put at a place. Directories on the way that are missing are made, and
a file that is in the way gives way. -/
def put (t : FileTree) (place : List FileName) (new : FileTree) : FileTree :=
  match place with
  | [] => new
  | name :: place =>
    .directory (setEntry name (((t.child? name).getD default).put place new) t.entries)

/-- The tree without what stands at a place. -/
def erase (t : FileTree) : List FileName → FileTree
  | [] => t
  | [name] =>
    match t with
    | .file f => .file f
    | .directory entries => .directory (entries.filter fun entry => entry.1 != name)
  | name :: place =>
    match t.child? name with
    | some sub => .directory (setEntry name (sub.erase place) t.entries)
    | none => t

/-! ## Lemmas -/

@[simp] theorem find?_nil (t : FileTree) : t.find? [] = some t := by
  unfold find?; rfl

theorem find?_cons (t : FileTree) (name : FileName) (place : List FileName) :
    t.find? (name :: place) = (t.child? name).bind (·.find? place) := by
  rw [find?]

theorem child?_setEntry (name : FileName) (sub : FileTree) (entries : List (FileName × FileTree)) :
    (directory (setEntry name sub entries)).child? name = some sub := by
  unfold child? FileTree.entries
  induction entries with
  | nil => simp [setEntry]
  | cons entry rest ih =>
    obtain ⟨other, t⟩ := entry
    simp only [setEntry]
    split
    · simp
    · next h =>
      split
      · simp
      · rw [List.find?_cons_of_neg (by simpa using fun heq => h heq.symm)]
        exact ih

theorem find?_put (t : FileTree) (place : List FileName) (new : FileTree) :
    (t.put place new).find? place = some new := by
  induction place generalizing t with
  | nil => simp [put]
  | cons name place ih => rw [put, find?_cons, child?_setEntry]; exact ih _

theorem before_trans {a b c : FileName} (h : before a b) (h' : before b c) : before a c := by
  simp only [before, decide_eq_true_eq] at *
  exact List.lt_trans h h'

theorem before_of_not_before {a b : FileName} (hne : a ≠ b) (h : before a b = false) :
    before b a = true := by
  simp only [before, decide_eq_false_iff_not, decide_eq_true_eq, List.not_lt] at *
  rcases Decidable.em (b.bytes < a.bytes) with hlt | hlt
  · exact hlt
  · exact absurd (FileName.eq_of_bytes (List.le_antisymm (List.not_lt.mp hlt) h)) hne

theorem mem_setEntry {name : FileName} {sub : FileTree} {entries : List (FileName × FileTree)}
    {entry : FileName × FileTree} (h : entry ∈ setEntry name sub entries) :
    entry = (name, sub) ∨ entry ∈ entries := by
  induction entries with
  | nil => simpa [setEntry] using h
  | cons first rest ih =>
    obtain ⟨other, t⟩ := first
    simp only [setEntry] at h
    split at h
    · rcases List.mem_cons.mp h with rfl | h
      · exact .inl rfl
      · exact .inr (List.mem_cons_of_mem _ h)
    · split at h
      · rcases List.mem_cons.mp h with rfl | h
        · exact .inl rfl
        · exact .inr h
      · rcases List.mem_cons.mp h with rfl | h
        · exact .inr List.mem_cons_self
        · exact (ih h).imp (fun e => e) (List.mem_cons_of_mem _)

theorem pairwise_setEntry {name : FileName} {sub : FileTree}
    {entries : List (FileName × FileTree)} (h : entries.Pairwise fun a b => before a.1 b.1) :
    (setEntry name sub entries).Pairwise fun a b => before a.1 b.1 := by
  induction entries with
  | nil => simp [setEntry]
  | cons first rest ih =>
    obtain ⟨other, t⟩ := first
    obtain ⟨hfirst, hrest⟩ := List.pairwise_cons.mp h
    simp only [setEntry]
    split
    · next heq =>
      subst heq
      exact List.pairwise_cons.mpr ⟨hfirst, hrest⟩
    · next hne =>
      split
      · next hbefore =>
        refine List.pairwise_cons.mpr ⟨?_, h⟩
        intro entry hentry
        rcases List.mem_cons.mp hentry with rfl | hentry
        · exact hbefore
        · exact before_trans hbefore (hfirst entry hentry)
      · next hbefore =>
        refine List.pairwise_cons.mpr ⟨?_, ih hrest⟩
        intro entry hentry
        rcases mem_setEntry hentry with rfl | hentry
        · exact before_of_not_before hne (by simpa using hbefore)
        · exact hfirst entry hentry

theorem allOrdered_iff {entries : List (FileName × FileTree)} :
    AllOrdered entries ↔ ∀ entry ∈ entries, entry.2.IsOrdered := by
  induction entries with
  | nil => simp [AllOrdered]
  | cons entry rest ih => simp [AllOrdered, ih]

theorem isOrdered_directory {entries : List (FileName × FileTree)} :
    (directory entries).IsOrdered ↔
      entries.Pairwise (fun a b => before a.1 b.1) ∧ ∀ entry ∈ entries, entry.2.IsOrdered := by
  rw [IsOrdered, allOrdered_iff]

theorem isOrdered_entries {t : FileTree} (h : t.IsOrdered) :
    t.entries.Pairwise (fun a b => before a.1 b.1) ∧ ∀ entry ∈ t.entries, entry.2.IsOrdered := by
  cases t with
  | file => simp [entries]
  | directory entries => exact isOrdered_directory.mp h

theorem isOrdered_child? {t sub : FileTree} {name : FileName} (h : t.IsOrdered)
    (hsub : t.child? name = some sub) : sub.IsOrdered := by
  obtain ⟨entry, hfind, rfl⟩ := Option.map_eq_some_iff.mp hsub
  exact (isOrdered_entries h).2 entry (List.mem_of_find?_eq_some hfind)

theorem isOrdered_default : (default : FileTree).IsOrdered :=
  isOrdered_directory.mpr ⟨.nil, by simp⟩

theorem isOrdered_setEntry {name : FileName} {sub : FileTree} {t : FileTree} (h : t.IsOrdered)
    (hsub : sub.IsOrdered) : (directory (setEntry name sub t.entries)).IsOrdered := by
  obtain ⟨hpairs, hall⟩ := isOrdered_entries h
  refine isOrdered_directory.mpr ⟨pairwise_setEntry hpairs, fun entry hentry => ?_⟩
  rcases mem_setEntry hentry with rfl | hentry
  · exact hsub
  · exact hall entry hentry

theorem isOrdered_put {t new : FileTree} (place : List FileName) (h : t.IsOrdered)
    (hnew : new.IsOrdered) : (t.put place new).IsOrdered := by
  induction place generalizing t with
  | nil => exact hnew
  | cons name place ih =>
    rw [put]
    refine isOrdered_setEntry h (ih ?_)
    cases hsub : t.child? name with
    | none => exact isOrdered_default
    | some sub => exact isOrdered_child? h hsub

theorem isOrdered_erase {t : FileTree} (place : List FileName) (h : t.IsOrdered) :
    (t.erase place).IsOrdered := by
  induction place generalizing t with
  | nil => rw [erase]; exact h
  | cons name place ih =>
    cases place with
    | nil =>
      cases t with
      | file => rw [erase]; exact h
      | directory entries =>
        obtain ⟨hpairs, hall⟩ := isOrdered_directory.mp h
        rw [erase]
        refine isOrdered_directory.mpr ⟨hpairs.filter _, fun entry hentry => ?_⟩
        exact hall entry (List.mem_filter.mp hentry).1
    | cons second place =>
      rw [erase]
      split
      · next sub hsub => exact isOrdered_setEntry h (ih (isOrdered_child? h hsub))
      · exact h
      · simp

end FileTree

end DepGraph

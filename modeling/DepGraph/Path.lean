import DepGraph.Text.Pieces
import DepGraph.Text.Utf8

/-!
# Paths

A path is read into the place where it starts and its parts. Repeated separators, a separator at the
end and inner dots say nothing and are gone; a dot in front and steps up stay, because paths are
compared part by part. Names are bytes, which need not be text: identifiers and messages show them
as text all the same, so different names may look alike there.

* `FileName.ofBytes?_bytes`: a file name is read back from its bytes.
* `Path.normalize_names`: a path in normal form has no steps up.
* `Path.join_rooted`: joining an absolute path replaces the path.
-/

namespace DepGraph

open DepGraph.Text

/-! ## Written forms -/

/-- A path, or a component of one, as it is written: any bytes. -/
structure WrittenPath where
  bytes : List UInt8
  deriving Repr, DecidableEq

namespace WrittenPath

/-- The bytes of a text. -/
def ofText (text : String) : WrittenPath :=
  ⟨encode text.toList⟩

instance : Coe String WrittenPath :=
  ⟨ofText⟩

/-- What is shown of the bytes. -/
def text (w : WrittenPath) : String :=
  String.ofList (decodeLossy w.bytes)

/-- The text of the bytes, if they are the bytes of a text. -/
def text? (w : WrittenPath) : Option String :=
  match decode w.bytes with
  | .ok text => some (String.ofList text)
  | .error _ => none

/-- The byte that separates components. -/
def separator : UInt8 := 0x2f

/-- Does the path start at the root? -/
def isRooted (w : WrittenPath) : Bool :=
  w.bytes.head? == some separator

/-- What stands between the separators. -/
def components (w : WrittenPath) : List WrittenPath :=
  (splitAt (· == separator) w.bytes).map mk

/-- Components with separators between them. -/
def ofComponents (components : List WrittenPath) : WrittenPath :=
  ⟨[separator].intercalate (components.map bytes)⟩

/-- The path `path` as it is seen from `directory`. -/
def join (directory path : WrittenPath) : WrittenPath :=
  if path.isRooted then path
  else if directory.bytes.isEmpty || directory.bytes.getLast? == some separator then
    ⟨directory.bytes ++ path.bytes⟩
  else ⟨directory.bytes ++ separator :: path.bytes⟩

end WrittenPath

/-! ## Components -/

/-- May the bytes name a file? -/
def isProperName (bytes : List UInt8) : Bool :=
  !bytes.isEmpty && bytes != [0x2e] && bytes != [0x2e, 0x2e] &&
    !bytes.contains WrittenPath.separator

/-- The name of a file in a directory. -/
structure FileName where
  bytes : List UInt8
  proper : isProperName bytes = true := by decide
  deriving DecidableEq

namespace FileName

/-- The name with the given bytes, if they may name a file. -/
def ofBytes? (bytes : List UInt8) : Option FileName :=
  if h : isProperName bytes then some ⟨bytes, h⟩ else none

/-- The name that is written as a text. -/
def named (text : String) (proper : isProperName (encode text.toList) = true := by decide) :
    FileName :=
  ⟨encode text.toList, proper⟩

/-- The written form of the name. -/
def written (n : FileName) : WrittenPath :=
  ⟨n.bytes⟩

/-- What is shown of the name. -/
def text (n : FileName) : String :=
  n.written.text

@[ext] theorem eq_of_bytes {a b : FileName} (h : a.bytes = b.bytes) : a = b := by
  cases a; cases b; simp_all

theorem ofBytes?_bytes (n : FileName) : ofBytes? n.bytes = some n := by
  simp [ofBytes?, n.proper]

end FileName

/-- One step of a path: up, or to a name. -/
inductive PathPart where
  | up
  | name (name : FileName)
  deriving DecidableEq

/-- Where a path starts. -/
inductive PathStart where
  /-- At the root of the file system. -/
  | root
  /-- At the current directory, written as a dot. -/
  | here
  /-- At the current directory, with nothing written. -/
  | implicit
  deriving DecidableEq

/-- A path. -/
structure Path where
  start : PathStart := .implicit
  parts : List PathPart := []
  deriving DecidableEq

namespace PathPart

/-- The written form of the part. -/
def written : PathPart → WrittenPath
  | .up => ".."
  | .name n => n.written

/-- What is shown of the part. -/
def text (part : PathPart) : String :=
  part.written.text

/-- The part for which a component stands. -/
def ofWritten? (w : WrittenPath) : Option PathPart :=
  if w = ".." then some .up else (FileName.ofBytes? w.bytes).map .name

end PathPart

namespace Path

/-! ## Reading and writing -/

/-- The components of a path, its start included. -/
def components (p : Path) : List WrittenPath :=
  (match p.start with
    | .root => ["/"]
    | .here => ["."]
    | .implicit => []) ++ p.parts.map PathPart.written

/-- The written form of the path. -/
def written (p : Path) : WrittenPath :=
  match p.start with
  | .root =>
    ⟨WrittenPath.separator :: (WrittenPath.ofComponents (p.parts.map PathPart.written)).bytes⟩
  | _ => .ofComponents p.components

/-- What is shown of the path. -/
def text (p : Path) : String :=
  p.written.text

/-- Reads a path. -/
def ofWritten (w : WrittenPath) : Path where
  start :=
    if w.isRooted then .root
    else if w.components.head? == some "." then .here
    else .implicit
  parts := w.components.filterMap PathPart.ofWritten?

/-- The path that is written as a text. -/
def ofText (text : String) : Path :=
  ofWritten text

/-- The absolute path through the given names. -/
def ofNames (names : List FileName) : Path :=
  ⟨.root, names.map .name⟩

/-! ## Parts -/

/-- Does the path start at the root? -/
def isAbsolute (p : Path) : Bool :=
  p.start == .root

/-- The last part, if it is a name. -/
def fileName? (p : Path) : Option FileName :=
  match p.parts.getLast? with
  | some (.name n) => some n
  | _ => none

/-- The path without its last step. The root and the empty path have none. -/
def parent? (p : Path) : Option Path :=
  match p.parts, p.start with
  | [], .here => some ⟨.implicit, []⟩
  | [], _ => none
  | _ :: _, start => some ⟨start, p.parts.dropLast⟩

/-- The path `q` seen from `p`. An absolute path stays what it is. -/
def join (p q : Path) : Path :=
  match q.start, p.start, p.parts with
  | .root, _, _ => q
  | _, .implicit, [] => q
  | _, start, parts => ⟨start, parts ++ q.parts⟩

/-- The path of a file in the directory `p`. -/
def child (p : Path) (name : FileName) : Path :=
  p.join ⟨.implicit, [.name name]⟩

theorem join_rooted (p : Path) {q : Path} (h : q.isAbsolute) : p.join q = q := by
  obtain ⟨start, parts⟩ := q
  simp only [isAbsolute, beq_iff_eq] at h
  subst h
  rfl

theorem isAbsolute_join (p q : Path) (h : p.isAbsolute) : (p.join q).isAbsolute := by
  obtain ⟨ps, pp⟩ := p
  obtain ⟨qs, qp⟩ := q
  simp only [isAbsolute, beq_iff_eq] at h
  subst h
  cases qs <;> simp [join, isAbsolute]

/-! ## Extensions -/

/-- The stem and the extension of a file name: what stands before and after its last dot. A dot in
front starts no extension. -/
def splitExtension (name : List UInt8) : List UInt8 × Option (List UInt8) :=
  let back := name.reverse
  match back.dropWhile (· != 0x2e) with
  | [] => (name, none)
  | _ :: stem =>
    if stem.isEmpty then (name, none)
    else (stem.reverse, some (back.takeWhile (· != 0x2e)).reverse)

/-- What stands after the last dot of the file name, if it is text. -/
def extension? (p : Path) : Option String := do
  let extension ← (splitExtension (← p.fileName?).bytes).2
  WrittenPath.text? ⟨extension⟩

/-- The path with its last name replaced, if it ends in a name and the new one is proper. -/
def withFileName (p : Path) (name : List UInt8) : Path :=
  match p.fileName?, FileName.ofBytes? name with
  | some _, some n => { p with parts := p.parts.dropLast ++ [.name n] }
  | _, _ => p

/-- The path that is read from what is shown of a path with a text after it. -/
def withSuffix (p : Path) (suffix : String) : Path :=
  ofText (p.text ++ suffix)

/-- The path with the extension of its last name replaced. -/
def withExtension (p : Path) (extension : String) : Path :=
  match p.fileName? with
  | some n => p.withFileName ((splitExtension n.bytes).1 ++ encode ("." ++ extension).toList)
  | none => p

/-! ## Normal form -/

/-- The names that are left when every step up takes the name before it away, last one first. At the
root a step up leads nowhere. -/
def resolveFrom : List FileName → List PathPart → List FileName
  | names, [] => names
  | names, .up :: rest => resolveFrom (names.drop 1) rest
  | names, .name n :: rest => resolveFrom (n :: names) rest

/-- The names of the path in normal form. -/
def resolved (p : Path) : List FileName :=
  (resolveFrom [] p.parts).reverse

/-- The path without dots and steps up. -/
def normalize (p : Path) : Path :=
  ⟨if p.isAbsolute then .root else .implicit, p.resolved.map .name⟩

theorem resolveFrom_map_name (names rest : List FileName) :
    resolveFrom names (rest.map .name) = rest.reverse ++ names := by
  induction rest generalizing names with
  | nil => rfl
  | cons n rest ih => simp [resolveFrom, ih]

@[simp] theorem resolveFrom_append (names : List FileName) (a b : List PathPart) :
    resolveFrom names (a ++ b) = resolveFrom (resolveFrom names a) b := by
  induction a generalizing names with
  | nil => rfl
  | cons part a ih => cases part <;> simp [resolveFrom, ih]

@[simp] theorem resolved_normalize (p : Path) : p.normalize.resolved = p.resolved := by
  unfold normalize resolved
  rw [resolveFrom_map_name]
  simp

theorem normalize_names (p : Path) :
    ∀ part ∈ p.normalize.parts, ∃ n, part = PathPart.name n := by
  simp only [normalize, List.mem_map]
  rintro part ⟨n, _, rfl⟩
  exact ⟨n, rfl⟩

/-! ## Paths below a directory -/

/-- The rest of a list after the given start. -/
def dropStart {α : Type} [DecidableEq α] : List α → List α → Option (List α)
  | [], rest => some rest
  | _ :: _, [] => none
  | a :: start, b :: rest => if a = b then dropStart start rest else none

/-- The path from `root` to `p`, if `p` starts with `root`. -/
def strip? (root p : Path) : Option Path :=
  if root.start == .implicit && root.parts.isEmpty then some p
  else if root.start == p.start then
    (dropStart root.parts p.parts).map fun parts => ⟨.implicit, parts⟩
  else none

/-- Does the path start with `root`? -/
def startsWith (p root : Path) : Bool :=
  (strip? root p).isSome

/-- The identifier of a file below `root`: what is shown of the steps to it, joined by slashes. The
root itself and what is not below it have none. -/
def relativeId? (root p : Path) : Option String :=
  match (strip? root p).map components with
  | none | some [] => none
  | some steps => some ("/".intercalate (steps.map WrittenPath.text))

end Path

end DepGraph

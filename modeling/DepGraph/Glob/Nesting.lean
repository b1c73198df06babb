import DepGraph.Glob.Pattern

/-!
# Nesting of patterns

A pattern is a tree: things in a row, choices, repetitions and classes each add a level to what they
hold. Patterns that are nested too deeply are refused when a set is made of them.

* `nesting_pos`: the row of the whole pattern is a level of its own.
* `nesting_of_chars`: a plain text has no level but that one.
-/

namespace DepGraph.Glob

mutual

/-- Does the piece match nothing but the empty text because all it holds is empty choices? -/
def Piece.isBlank : Piece → Bool
  | .choice branches => allBlank branches
  | _ => false

/-- Are all pieces blank? -/
def isBlank : List Piece → Bool
  | [] => true
  | piece :: pieces => piece.isBlank && isBlank pieces

/-- Are all branches blank? -/
def allBlank : List (List Piece) → Bool
  | [] => true
  | branch :: branches => isBlank branch && allBlank branches

end

/-- What decides how deep a row is: how many things stand in it, and how deep the deepest is. -/
structure Row where
  things : Nat
  depth : Nat
  deriving Repr, DecidableEq

namespace Row

/-- Nothing. -/
def empty : Row := ⟨0, 0⟩

/-- One thing of the given depth. -/
def one (depth : Nat) : Row := ⟨1, depth⟩

/-- The things of both rows. -/
def append (a b : Row) : Row := ⟨a.things + b.things, max a.depth b.depth⟩

/-- The depth of the row: to be in a row with others is a level. -/
def nested (r : Row) : Nat := if r.things ≤ 1 then r.depth else r.depth + 1

end Row

/-- The number of entries of a class. A character of several bytes stands for each of them. -/
def entries (ranges : List (Char × Char)) : Nat :=
  ranges.foldl (fun count (low, high) =>
    count + if low == high then low.utf8Size else low.utf8Size + high.utf8Size - 1) 0

mutual

/-- The piece as part of a row. -/
def Piece.row : Piece → Row
  | .literal c => ⟨c.utf8Size, 0⟩
  | .any => .one 1
  | .star => .one 2
  | .leading => .one 4
  | .trailing => ⟨2, 1⟩
  | .between => .one 4
  | .oneOf _ ranges => .one (if entries ranges ≤ 1 then 1 else 2)
  | .choice branches =>
    if allBlank branches then .empty else .one (1 + (branchRow branches).nested)

/-- The row of pieces. -/
def row : List Piece → Row
  | [] => .empty
  | piece :: pieces => piece.row.append (row pieces)

/-- The branches that are not blank, side by side. -/
def branchRow : List (List Piece) → Row
  | [] => .empty
  | branch :: branches =>
    if isBlank branch then branchRow branches
    else (Row.one (row branch).nested).append (branchRow branches)

end

/-- The depth of a pattern. -/
def nesting (pieces : List Piece) : Nat :=
  1 + (row pieces).depth

/-- Patterns that are deeper are refused. -/
def maxNesting : Nat := 250

theorem nesting_pos (pieces : List Piece) : 0 < nesting pieces := by
  unfold nesting
  omega

theorem depth_row_of_chars : ∀ text : List Char, (row (text.map Piece.literal)).depth = 0
  | [] => by simp [row, Row.empty]
  | c :: text => by
    simp [row, Piece.row, Row.append, depth_row_of_chars text]

theorem nesting_of_chars (text : List Char) : nesting (text.map Piece.literal) = 1 := by
  simp [nesting, depth_row_of_chars]

end DepGraph.Glob

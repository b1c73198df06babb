import DepGraph.Source.Script.Outline

/-!
# Walking an outline

The walk moves a position over an outline: to the first child where there is one, else to the next
sibling, else up until there is one. It needs no stack of calls, so an outline may be as deep as it
likes.

* `Position.remaining_next`: every move leaves fewer nodes ahead, so the walk ends.
* `Outline.preorder` is the order in which the nodes should be met, said by recursion on the tree.
-/

namespace DepGraph.Script

namespace Outline

mutual

/-- The number of nodes. -/
def size : Outline → Nat
  | .node _ children => 1 + sizes children

/-- The number of nodes of a list of outlines. -/
def sizes : List Outline → Nat
  | [] => 0
  | o :: rest => o.size + sizes rest

end

mutual

/-- The nodes, each before what it contains. -/
def preorder : Outline → List Outline
  | .node label children => .node label children :: preorders children

/-- The nodes of a list of outlines, in order. -/
def preorders : List Outline → List Outline
  | [] => []
  | o :: rest => o.preorder ++ preorders rest

end

@[simp] theorem sizes_nil : sizes [] = 0 := rfl

@[simp] theorem sizes_cons (o : Outline) (rest : List Outline) :
    sizes (o :: rest) = o.size + sizes rest := rfl

theorem size_eq (o : Outline) : o.size = 1 + sizes o.children := by
  cases o; rfl

end Outline

/-! ## Positions -/

/-- A place in an outline: a node, the siblings after it, and for each node above, from the inside
out, that node with the siblings after it. -/
structure Position where
  node : Outline
  later : List Outline
  above : List (Outline × List Outline)

namespace Position

/-- The position of the root. -/
def root (o : Outline) : Position :=
  ⟨o, [], []⟩

/-- The position of the first child. -/
def firstChild? (p : Position) : Option Position :=
  match p.node.children with
  | [] => none
  | child :: rest => some ⟨child, rest, (p.node, p.later) :: p.above⟩

/-- The position of the next sibling. -/
def nextSibling? (p : Position) : Option Position :=
  match p.later with
  | [] => none
  | next :: rest => some ⟨next, rest, p.above⟩

/-- The position of the node above. -/
def parent? (p : Position) : Option Position :=
  match p.above with
  | [] => none
  | (node, later) :: above => some ⟨node, later, above⟩

theorem length_above_parent {p up : Position} (h : p.parent? = some up) :
    up.above.length < p.above.length := by
  unfold parent? at h
  split at h
  · contradiction
  · next heq => cases h; simp [heq]

/-- The next sibling of the node or of the nearest node above that has one. -/
def climb (p : Position) : Option Position :=
  match p.nextSibling? with
  | some next => some next
  | none =>
    match _h : p.parent? with
    | some up => climb up
    | none => none
termination_by p.above.length
decreasing_by exact length_above_parent _h

theorem climb_of_parent {p up : Position} (hlater : p.nextSibling? = none)
    (hup : p.parent? = some up) : p.climb = up.climb := by
  rw [climb, hlater]
  dsimp only
  split <;> simp_all

theorem climb_of_root {p : Position} (hlater : p.nextSibling? = none) (hup : p.parent? = none) :
    p.climb = none := by
  rw [climb, hlater]
  dsimp only
  split <;> simp_all

/-- The next position of the walk. -/
def next? (p : Position) : Option Position :=
  match p.firstChild? with
  | some child => some child
  | none => p.climb

/-- The number of nodes at and below the siblings that come later, here and above. -/
def ahead (p : Position) : Nat :=
  Outline.sizes p.later + p.above.foldr (fun up rest => Outline.sizes up.2 + rest) 0

/-- The number of nodes that the walk has not met: those below the node and those ahead. -/
def remaining (p : Position) : Nat :=
  Outline.sizes p.node.children + p.ahead

theorem remaining_firstChild {p q : Position} (h : p.firstChild? = some q) :
    q.remaining + 1 = p.remaining := by
  unfold firstChild? at h
  split at h
  · contradiction
  · next child rest heq =>
    cases h
    have := child.size_eq
    simp only [remaining, ahead, heq, Outline.sizes_cons, List.foldr_cons]
    omega

theorem remaining_nextSibling {p q : Position} (h : p.nextSibling? = some q) :
    q.remaining + 1 = p.ahead := by
  unfold nextSibling? at h
  split at h
  · contradiction
  · next next rest heq =>
    cases h
    have := next.size_eq
    simp only [remaining, ahead, heq, Outline.sizes_cons]
    omega

theorem ahead_parent {p q : Position} (hlater : p.nextSibling? = none) (h : p.parent? = some q) :
    q.ahead = p.ahead := by
  have hnil : p.later = [] := by
    unfold nextSibling? at hlater
    split at hlater <;> first | assumption | contradiction
  unfold parent? at h
  split at h
  · contradiction
  · next heq =>
    cases h
    simp [ahead, heq, hnil]

/-- Climbing passes over nodes that have been met and over no other. -/
theorem remaining_climb {p q : Position} (h : p.climb = some q) : q.remaining + 1 = p.ahead := by
  induction p using climb.induct with
  | case1 p next hnext =>
    rw [climb, hnext] at h
    exact remaining_nextSibling (hnext.trans h)
  | case2 p hnext up hup ih =>
    rw [climb_of_parent hnext hup] at h
    rw [ih h, ahead_parent hnext hup]
  | case3 p hnext hup =>
    rw [climb_of_root hnext hup] at h
    contradiction

theorem remaining_next {p q : Position} (h : p.next? = some q) : q.remaining + 1 = p.remaining := by
  unfold next? at h
  split at h
  · next child hchild => exact remaining_firstChild (hchild.trans h)
  · next hchild =>
    have hnil : p.node.children = [] := by
      unfold firstChild? at hchild
      split at hchild <;> first | assumption | contradiction
    rw [remaining_climb h]
    simp [remaining, hnil]

/-- Combines the nodes from the position to the end of the walk, in the order of the walk. -/
def foldFrom {α : Type} (f : α → Outline → α) (a : α) (p : Position) : α :=
  match _h : p.next? with
  | some q => foldFrom f (f a p.node) q
  | none => f a p.node
termination_by p.remaining
decreasing_by have := remaining_next _h; omega

end Position

end DepGraph.Script

import DepGraph.Proofs.Source.OutlineFindings

/-!
# What the walk over an outline meets

The walk knows nothing but where it is: each move is to the first child, to the next sibling or up,
whichever comes first. What is still to be met can be read off the position all the same, and a move
takes just the first node off it. So the walk meets what recursion on the tree lists.

- `Position.upcoming`: the nodes from a position to the end of the walk.
- `Position.upcoming_eq_next`: one move takes the first of them off.
- `Position.foldFrom_eq_foldl`, `Position.map_node_after`: the walk meets them in this order.
- `Outline.mem_preorder_iff`: the nodes that are listed are those at any depth.
- `collect_walks`: what a script imports and exports, node by node.
-/

namespace DepGraph.Script

namespace Outline

/-! ## The nodes of an outline -/

/-- The first outline is the second one or stands somewhere below it. -/
inductive Within (n : Outline) : Outline → Prop
  | self : Within n n
  | child {child o : Outline} (hchild : child ∈ o.children) (h : Within n child) : Within n o

theorem preorder_eq (o : Outline) : o.preorder = o :: preorders o.children := by
  cases o; rfl

theorem preorders_eq_flatMap (os : List Outline) : preorders os = os.flatMap preorder := by
  induction os with
  | nil => rfl
  | cons o os ih => rw [List.flatMap_cons, ← ih]; rfl

mutual

theorem length_preorder : ∀ o : Outline, o.preorder.length = o.size
  | .node _ children => by
    rw [preorder, size, List.length_cons, length_preorders children, Nat.add_comm]

theorem length_preorders : ∀ os : List Outline, (preorders os).length = sizes os
  | [] => rfl
  | o :: rest => by
    rw [preorders, sizes, List.length_append, length_preorder o, length_preorders rest]

end

mutual

theorem within_of_mem_preorder {n : Outline} : ∀ {o : Outline}, n ∈ o.preorder → n.Within o
  | .node _ children, h => by
    rcases List.mem_cons.mp h with rfl | h
    · exact .self
    · obtain ⟨child, hchild, hwithin⟩ := within_of_mem_preorders h
      exact .child hchild hwithin

theorem within_of_mem_preorders {n : Outline} :
    ∀ {os : List Outline}, n ∈ preorders os → ∃ o ∈ os, n.Within o
  | o :: rest, h => by
    rcases List.mem_append.mp h with h | h
    · exact ⟨o, List.mem_cons_self, within_of_mem_preorder h⟩
    · obtain ⟨other, hother, hwithin⟩ := within_of_mem_preorders h
      exact ⟨other, List.mem_cons_of_mem o hother, hwithin⟩

end

theorem mem_preorder_iff {n o : Outline} : n ∈ o.preorder ↔ n.Within o := by
  refine ⟨within_of_mem_preorder, fun h => ?_⟩
  induction h with
  | self =>
    rw [preorder_eq]
    exact List.mem_cons_self
  | child hchild _ ih =>
    rw [preorder_eq, preorders_eq_flatMap]
    exact List.mem_cons_of_mem _ (List.mem_flatMap.mpr ⟨_, hchild, ih⟩)

end Outline

/-! ## What is still to be met -/

namespace Position

variable {p q : Position}

/-- The nodes that the walk meets once it is done with what is below the position. -/
def beyond (p : Position) : List Outline :=
  Outline.preorders p.later ++ p.above.flatMap fun up => Outline.preorders up.2

/-- The nodes from the position to the end of the walk. -/
def upcoming (p : Position) : List Outline :=
  p.node.preorder ++ p.beyond

theorem upcoming_root (o : Outline) : (root o).upcoming = o.preorder :=
  List.append_nil _

theorem upcoming_eq_cons (p : Position) :
    p.upcoming = p.node :: (Outline.preorders p.node.children ++ p.beyond) := by
  rw [upcoming, Outline.preorder_eq, List.cons_append]

theorem upcoming_of_firstChild (h : p.firstChild? = some q) :
    p.upcoming = p.node :: q.upcoming := by
  rw [upcoming_eq_cons]
  unfold firstChild? at h
  split at h
  · contradiction
  · next child rest heq =>
    cases h
    rw [heq, Outline.preorders, List.append_assoc]
    simp only [upcoming, beyond, List.flatMap_cons]

theorem beyond_of_nextSibling (h : p.nextSibling? = some q) : p.beyond = q.upcoming := by
  unfold nextSibling? at h
  split at h
  · contradiction
  · next next rest heq =>
    cases h
    rw [beyond, heq, Outline.preorders, List.append_assoc]
    rfl

theorem later_eq_nil (h : p.nextSibling? = none) : p.later = [] := by
  unfold nextSibling? at h
  split at h
  · assumption
  · contradiction

theorem beyond_of_parent (hlater : p.nextSibling? = none) (h : p.parent? = some q) :
    p.beyond = q.beyond := by
  rw [beyond, later_eq_nil hlater]
  unfold parent? at h
  split at h
  · contradiction
  · next heq =>
    cases h
    rw [heq, List.flatMap_cons]
    rfl

theorem beyond_of_root (hlater : p.nextSibling? = none) (h : p.parent? = none) :
    p.beyond = [] := by
  rw [beyond, later_eq_nil hlater]
  unfold parent? at h
  split at h
  · next heq => rw [heq]; rfl
  · contradiction

/-- Climbing goes where the nodes beyond begin, if there are any. -/
theorem beyond_eq_climb (p : Position) : p.beyond = p.climb.elim [] upcoming := by
  -- climbing takes the next sibling of the innermost node that has one
  induction p using climb.induct with
  | case1 p next hnext =>
    rw [climb, hnext]
    exact beyond_of_nextSibling hnext
  | case2 p hnext up hup ih => rw [climb_of_parent hnext hup, beyond_of_parent hnext hup, ih]
  | case3 p hnext hup => rw [climb_of_root hnext hup, beyond_of_root hnext hup, Option.elim_none]

/-- **One move takes the first node off what is still to be met.** -/
theorem upcoming_eq_next (p : Position) : p.upcoming = p.node :: p.next?.elim [] upcoming := by
  unfold next?
  split
  · next child hchild => exact upcoming_of_firstChild hchild
  · next hchild =>
    have hnil : p.node.children = [] := by
      unfold firstChild? at hchild
      split at hchild
      · assumption
      · contradiction
    rw [upcoming_eq_cons, hnil, ← beyond_eq_climb]
    rfl

/-! ## The whole walk -/

/-- Where the walk is after so many moves, unless it has ended before. -/
def after (p : Position) : Nat → Option Position
  | 0 => some p
  | moves + 1 => p.next?.bind fun q => q.after moves

theorem map_node_after (p : Position) (moves : Nat) :
    (p.after moves).map (·.node) = p.upcoming[moves]? := by
  induction moves generalizing p with
  | zero => rw [upcoming_eq_next]; rfl
  | succ moves ih =>
    rw [upcoming_eq_next, List.getElem?_cons_succ, after]
    cases p.next? with
    | none => rfl
    | some q => exact ih q

theorem foldFrom_eq_foldl {α : Type} (f : α → Outline → α) (a : α) (p : Position) :
    p.foldFrom f a = p.upcoming.foldl f a := by
  induction a, p using foldFrom.induct f with
  | case1 a p q hnext ih =>
    rw [upcoming_eq_next, hnext, List.foldl_cons, foldFrom]
    split <;> simp_all
  | case2 a p hnext =>
    rw [upcoming_eq_next, hnext, List.foldl_cons, foldFrom]
    split <;> simp_all

end Position

/-! ## What is collected -/

theorem toList_foldl_addNode (os : List Outline) (found : Array Import × Array String) :
    (os.foldl addNode found).1.toList = found.1.toList ++ os.filterMap Outline.reference? ∧
      (os.foldl addNode found).2.toList = found.2.toList ++ os.flatMap Outline.exportedNames := by
  induction os generalizing found with
  | nil => exact ⟨(List.append_nil _).symm, (List.append_nil _).symm⟩
  | cons o os ih =>
    obtain ⟨himports, hexports⟩ := ih (addNode found o)
    rw [List.foldl_cons, himports, hexports]
    constructor
    · rw [addNode, Array.toList_appendList, List.append_assoc, List.filterMap_cons]
      cases o.reference? <;> rfl
    · rw [addNode, Array.toList_appendList, List.append_assoc, List.flatMap_cons]

theorem imports_collect (o : Outline) :
    (collect o).imports = o.preorder.filterMap Outline.reference? := by
  show ((Position.root o).foldFrom addNode (#[], #[])).1.toList = _
  rw [Position.foldFrom_eq_foldl, Position.upcoming_root, (toList_foldl_addNode _ _).1]
  rfl

theorem exports_collect (o : Outline) :
    (collect o).exports = o.preorder.flatMap Outline.exportedNames := by
  show ((Position.root o).foldFrom addNode (#[], #[])).2.toList = _
  rw [Position.foldFrom_eq_foldl, Position.upcoming_root, (toList_foldl_addNode _ _).2]
  rfl

/-- Imports stand on the lines of their nodes, so they come in the order of the lines if the nodes
do. -/
theorem pairwise_line_filterMap {os : List Outline} (h : os.Pairwise fun n m => n.line ≤ m.line) :
    (os.filterMap Outline.reference?).Pairwise fun i j => i.line ≤ j.line := by
  have hline : ∀ {n : Outline} {i}, n.reference? = some i → i.line = n.line := by
    intro n i hi
    cases Outline.reference?_eq_some_iff.mp hi <;> rfl
  refine List.Pairwise.filterMap Outline.reference? (fun n m hle i hi j hj => ?_) h
  rw [hline hi, hline hj]
  exact hle

/-- **The walk over an outline meets every node once, each before what it contains.** After so many
moves it is at the node that comes so far in the listing by recursion, and it ends with the last
one; the listing has every node at any depth. So whatever is done at the nodes is done in this
order, and a script imports and exports what its nodes do, one after another and nothing else. If
the nodes come in the order of their lines, so do the imports. -/
theorem collect_walks (o : Outline) :
    (∀ moves, ((Position.root o).after moves).map (·.node) = o.preorder[moves]?) ∧
    o.preorder.length = o.size ∧ (∀ n : Outline, n ∈ o.preorder ↔ n.Within o) ∧
    (∀ (α : Type) (f : α → Outline → α) (a : α),
      (Position.root o).foldFrom f a = o.preorder.foldl f a) ∧
    (collect o).imports = o.preorder.filterMap Outline.reference? ∧
    (collect o).exports = o.preorder.flatMap Outline.exportedNames ∧
    (∀ i, i ∈ (collect o).imports ↔ ∃ n : Outline, n.Within o ∧ n.Refers i) ∧
    (∀ name, name ∈ (collect o).exports ↔ ∃ n : Outline, n.Within o ∧ n.Exports name) ∧
    (o.preorder.Pairwise (fun n m => n.line ≤ m.line) →
      (collect o).imports.Pairwise fun i j => i.line ≤ j.line) := by
  have himports := imports_collect o
  have hexports := exports_collect o
  refine ⟨fun moves => ?_, Outline.length_preorder o, fun n => Outline.mem_preorder_iff,
    fun α f a => ?_, himports, hexports, fun i => ?_, fun name => ?_, fun hlines => ?_⟩
  · rw [Position.map_node_after, Position.upcoming_root]
  · rw [Position.foldFrom_eq_foldl, Position.upcoming_root]
  · simp only [himports, List.mem_filterMap, Outline.mem_preorder_iff,
      Outline.reference?_eq_some_iff]
  · simp only [hexports, List.mem_flatMap, Outline.mem_preorder_iff,
      Outline.mem_exportedNames_iff]
  · rw [himports]
    exact pairwise_line_filterMap hlines

/-- A call that loads a module, with the nodes among its arguments. -/
def loadingCall (function : String) (line : Nat) (arguments : List Outline) : Outline :=
  .node { kind := .callExpression, line }
    [.node { kind := .identifier, field := some .function, line, text := function } [],
      .node { field := some .arguments, line } arguments]

/-- Calls in calls, a call without a text, and declarations that list, rename, declare or hide
names, with and without a source. -/
def nested : Outline :=
  let string (line : Nat) (text : String) (field : Option Field := none) : Outline :=
    .node { kind := .string, field, line, text } []
  let name (line : Nat) (text : String) (field : Field := .name) : Outline :=
    .node { kind := .identifier, field := some field, line, text } []
  .node { line := 1 }
    [.node { kind := .importStatement, line := 1 } [string 1 "'a'" (some .source)],
      .node { line := 2 }
        [loadingCall "require" 2 [string 2 "'b'", string 2 "'other'"],
          loadingCall "require" 3 [loadingCall "import" 3 [string 3 "'c'"]]],
      .node { kind := .exportStatement, line := 4 }
        [.node { kind := .exportClause, line := 4 }
            [.node { kind := .exportSpecifier, line := 4 } [name 4 "x"],
              .node { kind := .exportSpecifier, line := 4 } [name 4 "y", name 4 "z" .newName]],
          string 4 "'d'" (some .source)],
      .node { kind := .exportStatement, line := 5 }
        [.node { field := some .declaration, line := 5 }
          [.node { kind := .variableDeclarator, line := 5 }
              [name 5 "v", loadingCall "import" 5 [string 5 "''"]],
            .node { kind := .variableDeclarator, line := 6 }
              [.node { field := some .name, line := 6 } []]]],
      .node { kind := .exportStatement, line := 7 }
        [.node { kind := .default, line := 7, text := "default" } [],
          .node { field := some .declaration, line := 7 } [name 7 "hidden"]]]

theorem collect_walks_nested :
    nested.preorder.Pairwise (fun n m => n.line ≤ m.line) ∧ nested.size = 38 ∧
      ((Position.root nested).after 10).map (·.node.line) = some 3 ∧
      (Position.root nested).after 38 = none ∧
      (collect nested).imports.map (·.specifier) = ["a", "b", "c", "d"] ∧
      (collect nested).exports = ["x", "z", "v", "default"] ∧
      (collect nested).imports.Pairwise fun i j => i.line ≤ j.line := by
  have hlines : nested.preorder.Pairwise fun n m => n.line ≤ m.line := by decide +kernel
  obtain ⟨hmoves, hsize, -, -, himports, hexports, -, -, hpairwise⟩ := collect_walks nested
  refine ⟨hlines, rfl, ?_, ?_, ?_, ?_, hpairwise hlines⟩
  · have hnode := congrArg (Option.map Outline.line) (hmoves 10)
    rw [Option.map_map] at hnode
    exact hnode
  · exact Option.map_eq_none_iff.mp ((hmoves 38).trans rfl)
  · rw [himports]
    decide +kernel
  · rw [hexports]
    decide +kernel

end DepGraph.Script

import DepGraph.Graph.Adjacency

/-!
# Depths and the critical path

The depth of a node is the length of the longest chain of dependencies that starts there. It is
computed in the order in which a depth-first search leaves the nodes: a dependency that has not been
left yet stands on the way of the search, counts one step and is never followed. The dependency over
which the longest chain goes on is the parent of the node.

* `Depths.depth_parent`: a parent is one step less deep, so that following the parents ends.
* `depth_among_eq_zero_iff`: exactly the nodes without dependencies are at depth zero.
-/

namespace DepGraph

/-! ## The best way on -/

/-- The best way on from a node: how deep it leads, and the dependency it goes over, if that was
left already. -/
structure Best where
  depth : Nat := 0
  parent : Option String := none
  deriving Repr, DecidableEq

namespace Best

/-- The better of the best way so far and the way over a dependency. A way that can be followed wins
over one of the same depth that cannot. -/
def better (depths : Std.TreeMap String Nat) (best : Best) (dependency : String) : Best :=
  match depths[dependency]? with
  | some depth =>
    if best.depth < depth + 1 || (best.parent.isNone && depth + 1 == best.depth) then
      ⟨depth + 1, some dependency⟩
    else best
  | none => if best.depth < 1 then ⟨1, none⟩ else best

/-- The best way among those over the dependencies. -/
def among (depths : Std.TreeMap String Nat) (dependencies : List String) : Best :=
  dependencies.foldl (better depths) {}

theorem depth_better_pos (depths : Std.TreeMap String Nat) (best : Best) (dependency : String) :
    0 < (better depths best dependency).depth := by
  unfold better
  split
  · split
    · exact Nat.succ_pos _
    · next h => simp at h; omega
  · split
    · exact Nat.one_pos
    · next h => simp at h; omega

theorem depth_foldl_better_pos (depths : Std.TreeMap String Nat) :
    ∀ (dependencies : List String) (best : Best), 0 < best.depth →
      0 < (dependencies.foldl (better depths) best).depth
  | [], _, h => h
  | dependency :: rest, best, _ =>
    depth_foldl_better_pos depths rest _ (depth_better_pos depths best dependency)

theorem depth_among_eq_zero_iff (depths : Std.TreeMap String Nat) (dependencies : List String) :
    (among depths dependencies).depth = 0 ↔ dependencies = [] := by
  cases dependencies with
  | nil => simp [among]
  | cons dependency rest =>
    have := depth_foldl_better_pos depths rest _ (depth_better_pos depths {} dependency)
    simp only [among, List.foldl_cons, reduceCtorEq, iff_false]
    omega

/-- A way that can be followed is one step longer than the way on from there. -/
def Follows (depths : Std.TreeMap String Nat) (best : Best) : Prop :=
  ∀ parent, best.parent = some parent → ∃ depth, depths[parent]? = some depth ∧ best.depth = depth + 1

theorem follows_better {depths : Std.TreeMap String Nat} {best : Best} (h : Follows depths best)
    (dependency : String) : Follows depths (better depths best dependency) := by
  unfold better
  split
  · next depth hdepth =>
    split
    · rintro parent ⟨⟩
      exact ⟨depth, hdepth, rfl⟩
    · exact h
  · split
    · rintro parent ⟨⟩
    · exact h

theorem follows_foldl_better {depths : Std.TreeMap String Nat} :
    ∀ (dependencies : List String) {best : Best}, Follows depths best →
      Follows depths (dependencies.foldl (better depths) best)
  | [], _, h => h
  | dependency :: rest, _, h => follows_foldl_better rest (follows_better h dependency)

theorem follows_among (depths : Std.TreeMap String Nat) (dependencies : List String) :
    Follows depths (among depths dependencies) :=
  follows_foldl_better dependencies fun _ h => nomatch h

end Best

/-! ## Computing -/

/-- The depths of the nodes that were left so far, and their parents. -/
structure Depths where
  /-- The nodes in the order in which they were left. -/
  left : Array String := #[]
  depths : Std.TreeMap String Nat := ∅
  parents : Std.TreeMap String String := ∅
  /-- A parent has a depth, and it is one less. -/
  depth_parent : ∀ id parent : String, parents[id]? = some parent →
    ∃ depth, depths[parent]? = some depth ∧ depths[id]? = some (depth + 1) := by simp

namespace Depths

/-- The parents after a node was left. -/
def parentsWith (d : Depths) (id : String) : Option String → Std.TreeMap String String
  | some parent => d.parents.insert id parent
  | none => d.parents

/-- Leaving a node changes nothing for those that were left before. -/
theorem depth_parent_complete (d : Depths) {id : String} (dependencies : List String)
    (h : id ∉ d.depths) (other parent : String)
    (hparent : (d.parentsWith id (Best.among d.depths dependencies).parent)[other]? = some parent) :
    ∃ depth, (d.depths.insert id (Best.among d.depths dependencies).depth)[parent]? = some depth ∧
      (d.depths.insert id (Best.among d.depths dependencies).depth)[other]? = some (depth + 1) := by
  -- whatever has a depth already is another node
  have hne : ∀ {known depth}, d.depths[known]? = some depth → id ≠ known := by
    rintro known depth hknown rfl
    exact h (Std.TreeMap.mem_iff_isSome_getElem?.mpr (by rw [hknown]; rfl))
  have hold : d.parents[other]? = some parent →
      ∃ depth, (d.depths.insert id (Best.among d.depths dependencies).depth)[parent]? = some depth ∧
        (d.depths.insert id (Best.among d.depths dependencies).depth)[other]? = some (depth + 1) := by
    intro hother
    obtain ⟨depth, hdepth, hdepth'⟩ := d.depth_parent other parent hother
    refine ⟨depth, ?_, ?_⟩
    · simpa [Std.TreeMap.getElem?_insert, hne hdepth] using hdepth
    · simpa [Std.TreeMap.getElem?_insert, hne hdepth'] using hdepth'
  unfold parentsWith at hparent
  split at hparent
  · next new hnew =>
    rw [Std.TreeMap.getElem?_insert] at hparent
    split at hparent
    · next heq =>
      obtain rfl : new = parent := Option.some.inj hparent
      obtain rfl : id = other := Std.LawfulEqCmp.eq_of_compare heq
      obtain ⟨depth, hdepth, hbest⟩ := Best.follows_among d.depths dependencies new hnew
      refine ⟨depth, ?_, ?_⟩
      · simpa [Std.TreeMap.getElem?_insert, hne hdepth] using hdepth
      · simp [hbest]
    · exact hold hparent
  · exact hold hparent

/-- Leaves a node with the given dependencies. A node is left once. -/
def complete (d : Depths) (id : String) (dependencies : List String) : Depths :=
  if h : id ∈ d.depths then d
  else
    { left := d.left.push id
      depths := d.depths.insert id (Best.among d.depths dependencies).depth
      parents := d.parentsWith id (Best.among d.depths dependencies).parent
      depth_parent := d.depth_parent_complete dependencies h }

/-- The depths that result from leaving the nodes in the given order. -/
def ofOrder (next : String → List String) (order : List String) : Depths :=
  order.foldl (fun d id => d.complete id (next id)) {}

/-- The depths of the nodes of a graph. -/
def compute (g : Graph) : Depths :=
  ofOrder g.byId.next (DepthFirst.completionOrder g.byId)

/-! ## Asking -/

/-- The nodes in the order in which they were left. -/
def order (d : Depths) : List String :=
  d.left.toList

/-- The depth of a node; unknown nodes are at depth zero. -/
def depthOf (d : Depths) (id : String) : Nat :=
  d.depths[id]?.getD 0

theorem depthOf_eq_succ (d : Depths) {id parent : String} (h : d.parents[id]? = some parent) :
    d.depthOf id = d.depthOf parent + 1 := by
  obtain ⟨depth, hparent, hid⟩ := d.depth_parent id parent h
  simp [depthOf, hparent, hid]

/-- The greatest depth. -/
def maxDepth (d : Depths) : Nat :=
  d.depths.foldl (fun greatest _ depth => max greatest depth) 0

/-- Goes on from a node to its parent, as far as there is one, after the nodes so far. -/
def follow (d : Depths) (sofar : Array String) (id : String) : Array String :=
  match _h : d.parents[id]? with
  | some parent => d.follow (sofar.push id) parent
  | none => sofar.push id
termination_by d.depthOf id
decreasing_by rw [d.depthOf_eq_succ _h]; exact Nat.lt_succ_self _

/-- The longest chain from a node. -/
def chain (d : Depths) (id : String) : List String :=
  (d.follow #[] id).toList

/-- The better of the best entry so far and another one. The deeper one is better; of two that are
equally deep, the one whose identifier comes first. -/
def deeper (best : Option (String × Nat)) (entry : String × Nat) : Option (String × Nat) :=
  match best with
  | some (id, depth) =>
    if depth < entry.2 || (depth == entry.2 && entry.1 < id) then some entry else best
  | none => some entry

/-- The deepest entry, in whatever order the entries are listed. -/
def deepest (entries : List (String × Nat)) : Option (String × Nat) :=
  entries.foldl deeper none

/-- The longest chain; of several, the one whose first node comes first. -/
def criticalPath (d : Depths) : List String :=
  match deepest d.depths.toList with
  | some (id, _) => d.chain id
  | none => []

/-- Writes the depths of some entries into the nodes. -/
def write (entries : List (String × Nat)) (g : Graph) : Graph :=
  entries.foldl
    (fun g entry => g.modifyNode entry.1 fun node => { node with depth := entry.2 }) g

/-- Writes all depths into the nodes. -/
def apply (d : Depths) (g : Graph) : Graph :=
  write d.depths.toList g

end Depths

end DepGraph

import Mathlib.Data.List.Chain
import DepGraph.Analysis.Cycle

/-!
# Closed walks

A closed walk follows a relation until it is back where it started. It may meet a node several
times; a cycle is a closed walk that does not. A relation without closed walks is acyclic, and a
rank that falls along it shows that it is.

- `closedWalk_cons_iff`: a closed walk is a chain that returns to its first node.
- `Acyclic.of_rank`: a rank that falls along a relation leaves no closed walk.
- `idxOf_lt_of_sublist`: the place in a list without repetitions is such a rank.
-/

namespace DepGraph

open scoped List

/-- Nodes of which each leads to the next, and the last back to the first. -/
def ClosedWalk (r : String → String → Prop) (members : List String) : Prop :=
  members ≠ [] ∧ ∀ link ∈ Cycle.links members, r link.1 link.2

/-- No walk along the relation is closed. -/
def Acyclic (r : String → String → Prop) : Prop :=
  ∀ members, ¬ ClosedWalk r members

section Relation

variable {r r' : String → String → Prop}

/-- The links of a walk from one node to another are those of a chain. -/
theorem forall_mem_zip_iff (first last : String) (rest : List String) :
    (∀ link ∈ (first :: rest).zip (rest ++ [last]), r link.1 link.2) ↔
      (first :: (rest ++ [last])).IsChain r := by
  induction rest generalizing first with
  | nil => simp
  | cons second rest ih =>
    rw [List.cons_append, List.zip_cons_cons, List.forall_mem_cons, ih, List.isChain_cons_cons]

theorem closedWalk_cons_iff (first : String) (rest : List String) :
    ClosedWalk r (first :: rest) ↔ (first :: (rest ++ [first])).IsChain r := by
  rw [← forall_mem_zip_iff]
  exact and_iff_right (List.cons_ne_nil first rest)

theorem ClosedWalk.mono (h : ∀ u v, r u v → r' u v) {members : List String}
    (hwalk : ClosedWalk r members) : ClosedWalk r' members :=
  ⟨hwalk.1, fun link hlink => h link.1 link.2 (hwalk.2 link hlink)⟩

theorem Acyclic.mono (h : ∀ u v, r' u v → r u v) (hr : Acyclic r) : Acyclic r' :=
  fun members hwalk => hr members (hwalk.mono h)

/-- A rank that falls along a relation leaves no closed walk. -/
theorem Acyclic.of_rank (rank : String → Nat) (h : ∀ u v, r u v → rank v < rank u) :
    Acyclic r := by
  rintro (_ | ⟨first, rest⟩) hwalk
  · exact hwalk.1 rfl
  rw [closedWalk_cons_iff] at hwalk
  -- the rank falls all the way, from the first node to itself
  have hfalls : ((first :: (rest ++ [first])).map rank).IsChain (· > ·) :=
    (List.isChain_map rank).mpr (hwalk.imp fun u v huv => h u v huv)
  rw [List.isChain_iff_pairwise, List.map_cons, List.pairwise_cons] at hfalls
  refine Nat.lt_irrefl (rank first) (hfalls.1 (rank first) ?_)
  exact List.mem_map_of_mem (List.mem_append_right rest List.mem_cons_self)

end Relation

/-- In a list without repetitions, what comes before something else has a smaller place. -/
theorem idxOf_lt_of_sublist {ids : List String} {u v : String} (hids : ids.Nodup)
    (h : [v, u] <+ ids) : ids.idxOf v < ids.idxOf u := by
  induction ids with
  | nil => exact nomatch h
  | cons id ids ih =>
    obtain ⟨hnew, hids⟩ := List.nodup_cons.mp hids
    cases h with
    | cons _ h =>
      have hv : v ∈ ids := h.subset List.mem_cons_self
      have hu : u ∈ ids := h.subset (List.mem_cons_of_mem v List.mem_cons_self)
      rw [List.idxOf_cons_ne _ (by rintro rfl; exact hnew hv),
        List.idxOf_cons_ne _ (by rintro rfl; exact hnew hu)]
      exact Nat.succ_lt_succ (ih hids h)
    | cons_cons _ h =>
      have hu : u ∈ ids := List.singleton_sublist.mp h
      rw [List.idxOf_cons_self, List.idxOf_cons_ne _ (by rintro rfl; exact hnew hu)]
      exact Nat.succ_pos _

end DepGraph

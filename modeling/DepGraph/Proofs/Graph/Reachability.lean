import Mathlib.Logic.Relation
import DepGraph.Proofs.Cycle.Detection

/-!
# Reachability

A node reaches another if a walk of at least one edge leads there, so that a node reaches itself
exactly if it is on a closed walk. A search along the edges tells two things about an edge: either
its target is left first, or its target reaches its source.

- `reaches_of_closing`: an edge that closes a cycle leads back to where the search came from.
- `before_or_reaches`: an edge leads to a node that is left earlier, or to one that reaches its
  source.
-/

namespace DepGraph.Graph

open DepthFirst
open scoped List

variable {g : Graph} {u v : String}

/-- Does a walk of at least one edge lead from the first node to the second? -/
def Reaches (g : Graph) : String → String → Prop :=
  Relation.TransGen g.Joins

/-- A walk that leads back to where an edge comes from gives a way along the edges. -/
theorem reaches_of_chain {members : List String} (hlinked : members.IsChain g.Joins)
    (hfirst : members.head? = some v) (hlast : members.getLast? = some u) (hback : g.Joins u v) :
    g.Reaches v u := by
  cases members with
  | nil => exact nomatch hfirst
  | cons first rest =>
    obtain rfl : first = v := Option.some.inj hfirst
    have hway : Relation.ReflTransGen g.Joins first u := by
      refine List.relationReflTransGen_of_exists_isChain_cons rest hlinked ?_
      rw [List.getLast?_eq_some_getLast (List.cons_ne_nil first rest)] at hlast
      exact Option.some.inj hlast
    rcases Relation.reflTransGen_iff_eq_or_transGen.mp hway with heq | hreaches
    · -- the walk is one node, so the edge joins it to itself
      subst heq
      exact .single hback
    · exact hreaches

section Search

variable {a : Adjacency} (hnext : ∀ u v, v ∈ a.next u ↔ g.Joins u v)

include hnext

/-- An edge that closes a cycle of the search leads to a node that reaches its source. -/
theorem reaches_of_closing (h : some (u, v) ∈ (DepthFirst.cycles a).map closingEdge?) :
    g.Reaches v u := by
  obtain ⟨members, hmembers, hclosing⟩ := List.mem_map.mp h
  obtain ⟨-, hlinked, last, first, hclosing', hedge⟩ := simple_of_mem_cycles hmembers
  obtain ⟨rfl, rfl⟩ := Prod.mk.inj (Option.some.inj (hclosing.symm.trans hclosing'))
  obtain ⟨hlast, hfirst⟩ := closingEdge?_eq_some_iff.mp hclosing
  refine reaches_of_chain (hlinked.imp fun u v => (hnext u v).mp) hfirst hlast ?_
  exact (hnext _ _).mp hedge

/-- An edge leads to a node that the search leaves earlier, or to one that reaches its source. -/
theorem before_or_reaches (h : g.Joins u v) :
    [v, u] <+ completionOrder a ∨ g.Reaches v u :=
  (before_or_closing ((hnext u v).mpr h)).imp_right (reaches_of_closing hnext)

end Search

end DepGraph.Graph

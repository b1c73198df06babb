import Std.Data.TreeMap
import DepGraph.Configuration

/-!
# Similar names

A strategy gives names a key; names with the same key belong together.

* `Similarity.key_of_mem_groups`: the members of a group have its key.
-/

namespace DepGraph

/-- A way to tell which names belong together. -/
structure Similarity where
  name : String
  /-- The key of a name, if it belongs to any group. -/
  key? : String → Option String

namespace Similarity

/-- Does the name start with the given text and go on after it? -/
def hasStart (name start : String) : Bool :=
  !start.isEmpty && start.toList.isPrefixOf name.toList && start.length < name.length

/-- Does the name end with the given text and start before it? -/
def hasEnd (name ending : String) : Bool :=
  !ending.isEmpty && ending.toList.isSuffixOf name.toList && ending.length < name.length

/-- Names go by the first of the starts that they have, and failing that by the first of the
ends. -/
def affixes (starts ends : List String) : Similarity where
  name := "affix"
  key? name := starts.find? (hasStart name) <|> ends.find? (hasEnd name)

/-- The strategy of a configuration. -/
def ofConfiguration (c : Configuration) : Similarity :=
  affixes c.similarPrefixes c.similarSuffixes

/-- Names go by their first character. -/
def firstLetter : Similarity where
  name := "first-letter"
  key? name := name.toList.head?.map fun c => String.ofList [c]

/-! ## Groups -/

/-- The groups with one more name. -/
def addName (s : Similarity) (groups : Std.TreeMap String (List String)) (name : String) :
    Std.TreeMap String (List String) :=
  match s.key? name with
  | none => groups
  | some key =>
    let members := groups.getD key []
    if members.contains name then groups else groups.insert key (members ++ [name])

/-- The groups of at least two names, by key, each with its members in the order of the names. -/
def groups (s : Similarity) (names : List String) : List (String × List String) :=
  (names.foldl s.addName ∅).toList.filter fun group => group.2.length > 1

theorem key_of_mem_foldl_addName (s : Similarity) :
    ∀ (names : List String) (groups : Std.TreeMap String (List String)),
      (∀ key members, groups[key]? = some members → ∀ m ∈ members, s.key? m = some key) →
      ∀ key members, (names.foldl s.addName groups)[key]? = some members →
        ∀ m ∈ members, s.key? m = some key
  | [], _, h => h
  | name :: names, groups, h => by
    refine key_of_mem_foldl_addName s names _ ?_
    intro key members hget m hm
    unfold addName at hget
    split at hget
    · exact h key members hget m hm
    · next key' hkey =>
      dsimp only at hget
      split at hget
      · exact h key members hget m hm
      · rw [Std.TreeMap.getElem?_insert] at hget
        split at hget
        · next heq =>
          obtain rfl := Std.LawfulEqOrd.eq_of_compare heq
          cases hget
          rcases List.mem_append.mp hm with hm | hm
          · rw [Std.TreeMap.getD_eq_getD_getElem?] at hm
            cases hold : groups[key']? with
            | none => simp [hold] at hm
            | some old => exact h key' old hold m (by simpa [hold] using hm)
          · obtain rfl := List.mem_singleton.mp hm
            exact hkey
        · exact h key members hget m hm

theorem key_of_mem_groups {s : Similarity} {names : List String} {group : String × List String}
    (h : group ∈ s.groups names) : ∀ m ∈ group.2, s.key? m = some group.1 := by
  have hmem := (List.mem_filter.mp h).1
  refine key_of_mem_foldl_addName s names ∅ (by simp) group.1 group.2 ?_
  exact Std.TreeMap.mem_toList_iff_getElem?_eq_some.mp hmem

end Similarity

end DepGraph

import Mathlib.Data.List.Perm.Subperm
import DepGraph.Analysis.Similarity
import DepGraph.Proofs.Graph.Built

/-!
# Groups of names

A strategy puts every name that has a key into the group of the key, and the groups of at least two
names are reported. A name may come several times; a group has it once.

- `Similarity.withKey`: the names that have a key.
- `Similarity.getD_foldl_addName`: what is collected under a key is those names, each once.
- `Similarity.mem_groups_iff`: which groups are reported.
- `Similarity.pairwise_groups`: they come in strict order of their keys.
-/

namespace DepGraph.Similarity

variable {s : Similarity} {names : List String} {key name : String}

/-- The names with the key. -/
def withKey (s : Similarity) (key : String) (names : List String) : List String :=
  names.filter (s.key? · == some key)

theorem mem_withKey_iff : name ∈ s.withKey key names ↔ name ∈ names ∧ s.key? name = some key := by
  simp [withKey]

/-! ## Collecting -/

/-- One more name changes the group of its key, and that only if the name is new in it. -/
theorem getD_addName (groups : Std.TreeMap String (List String)) :
    (s.addName groups name).getD key [] =
      if s.key? name = some key ∧ name ∉ groups.getD key [] then groups.getD key [] ++ [name]
      else groups.getD key [] := by
  unfold addName
  split
  · next hnone => simp [hnone]
  · next other hother =>
    dsimp only
    by_cases hkey : other = key
    · subst hkey
      by_cases hmem : name ∈ groups.getD other [] <;> simp [hother, hmem]
    · have hne : s.key? name ≠ some key := by rw [hother]; simpa using hkey
      rw [if_neg (mt And.left hne)]
      split
      · rfl
      · rw [Std.TreeMap.getD_insert, if_neg (mt Std.compare_eq_iff_eq.mp hkey)]

/-- Under a key stand the names that have it, each once, in the order in which they came first. -/
theorem getD_foldl_addName (s : Similarity) (names : List String) (key : String) :
    (names.foldl s.addName ∅).getD key [] = (s.withKey key names).eraseDups := by
  -- the names are added from the left, so that the last one meets what was collected before
  induction names using List.reverseRecOn with
  | nil => rfl
  | append_singleton names name ih =>
    rw [List.foldl_concat, getD_addName, ih, withKey, withKey, List.filter_append]
    by_cases hkey : s.key? name = some key
    · have hlast : [name].filter (s.key? · == some key) = [name] := by simp [hkey]
      rw [hlast, eraseDups_concat]
      by_cases hmem : name ∈ names.filter (s.key? · == some key)
      · rw [if_neg (fun h => h.2 (List.mem_eraseDups.mpr hmem)), if_pos hmem]
      · rw [if_pos ⟨hkey, mt List.mem_eraseDups.mp hmem⟩, if_neg hmem]
    · have hlast : [name].filter (s.key? · == some key) = [] := by simp [hkey]
      rw [hlast, List.append_nil, if_neg (mt And.left hkey)]

/-! ## The groups that are reported -/

/-- A group is reported if it has at least two names. -/
theorem mem_groups_iff {members : List String} :
    (key, members) ∈ s.groups names ↔
      members = (s.withKey key names).eraseDups ∧ 1 < members.length := by
  unfold groups
  rw [List.mem_filter, Std.TreeMap.mem_toList_iff_getElem?_eq_some, decide_eq_true_eq,
    ← getD_foldl_addName, Std.TreeMap.getD_eq_getD_getElem?]
  refine and_congr_left fun hlength => ?_
  cases hget : (names.foldl s.addName ∅)[key]? with
  | none =>
    refine iff_of_false nofun ?_
    rintro rfl
    exact absurd hlength (by simp)
  | some found => exact Option.some_inj.trans eq_comm

/-- The members of a reported group are the names that have its key. -/
theorem mem_members_iff {group : String × List String} (h : group ∈ s.groups names) :
    name ∈ group.2 ↔ name ∈ names ∧ s.key? name = some group.1 := by
  obtain ⟨hmembers, -⟩ := mem_groups_iff.mp h
  rw [hmembers, List.mem_eraseDups, mem_withKey_iff]

theorem nodup_members {group : String × List String} (h : group ∈ s.groups names) :
    group.2.Nodup := by
  obtain ⟨hmembers, -⟩ := mem_groups_iff.mp h
  rw [hmembers]
  exact nodup_eraseDups _

/-- A key has a group exactly if two different names have it. -/
theorem exists_mem_groups_iff : (∃ members, (key, members) ∈ s.groups names) ↔
    ∃ a ∈ names, ∃ b ∈ names, a ≠ b ∧ s.key? a = some key ∧ s.key? b = some key := by
  constructor
  · rintro ⟨members, hgroup⟩
    have hnodup := nodup_members hgroup
    have hmem : ∀ name, name ∈ members ↔ name ∈ names ∧ s.key? name = some key :=
      fun _ => mem_members_iff hgroup
    match members, (mem_groups_iff.mp hgroup).2 with
    | a :: b :: rest, _ =>
      obtain ⟨ha, hakey⟩ := (hmem a).mp List.mem_cons_self
      obtain ⟨hb, hbkey⟩ := (hmem b).mp (List.mem_cons_of_mem a List.mem_cons_self)
      refine ⟨a, ha, b, hb, ?_, hakey, hbkey⟩
      rintro rfl
      exact (List.nodup_cons.mp hnodup).1 List.mem_cons_self
  · rintro ⟨a, ha, b, hb, hne, hakey, hbkey⟩
    refine ⟨_, mem_groups_iff.mpr ⟨rfl, ?_⟩⟩
    have hsub : [a, b] ⊆ (s.withKey key names).eraseDups := by
      simp [List.mem_eraseDups, mem_withKey_iff, ha, hb, hakey, hbkey]
    have hpair : [a, b].Nodup := by simpa using hne
    exact (hpair.subperm hsub).length_le

theorem pairwise_groups (s : Similarity) (names : List String) :
    (s.groups names).Pairwise fun a b => a.1 < b.1 := by
  have hordered : (names.foldl s.addName ∅).toList.Pairwise fun a b => compare a.1 b.1 = .lt :=
    Std.TreeMap.ordered_keys_toList
  exact (hordered.imp compareOfLessAndEq_eq_lt.mp).filter _

end DepGraph.Similarity

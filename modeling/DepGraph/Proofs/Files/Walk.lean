import Mathlib.Data.List.Lex
import Mathlib.Data.List.Nodup
import DepGraph.Files.Discovery
import DepGraph.Files.System
import DepGraph.Proofs.Files.Names

/-!
# The files on a walk

A walk through a tree goes through every directory in the order of the names in it, so it finds the
files in the order of their places, name by name, and none of them twice. The identifier of a place
that is not the root tells what is shown of its names, because no name contains a slash. It tells
the place if the names are text.

- `pairwise_walk`: the places on a walk come in order.
- `SourceFile.idOf_eq_iff`: which places have the same identifier.
- `SourceFile.idOf_injective`: places through names that are text have different ones.
- `Configuration.nodup_of_discover`, `Configuration.nodup_ids_of_discover`: no source file comes
  twice, and if all names are text, no two have the same identifier.
-/

namespace DepGraph

/-! ## Identifiers -/

/-- Cutting at the slashes takes apart what was joined by slashes. -/
theorem splitOn_intercalate_slash {texts : List String} (h : texts ≠ [])
    (hslash : ∀ text ∈ texts, '/' ∉ text.toList) :
    ("/".intercalate texts).toList.splitOn '/' = texts.map String.toList := by
  rw [String.toList_intercalate]
  refine List.splitOn_intercalate '/' ?_ (by simpa using h)
  intro text htext
  obtain ⟨s, hs, rfl⟩ := List.mem_map.mp htext
  exact hslash s hs

/-- Cutting the identifier of a place at the slashes gives what is shown of its names. -/
theorem SourceFile.splitOn_idOf {place : List FileName} (h : place ≠ []) :
    (idOf place).toList.splitOn '/' = place.map fun name => name.text.toList := by
  rw [idOf, splitOn_intercalate_slash (by simpa using h), List.map_map]
  · rfl
  · intro text htext
    obtain ⟨name, -, rfl⟩ := List.mem_map.mp htext
    exact name.slash_not_mem_text

/-- Places have the same identifier if the same is shown of their names. -/
theorem SourceFile.idOf_eq_iff {place place' : List FileName} (h : place ≠ []) (h' : place' ≠ []) :
    idOf place = idOf place' ↔ place.map FileName.text = place'.map FileName.text := by
  constructor
  · intro heq
    have hnames := splitOn_idOf h
    rw [heq, splitOn_idOf h'] at hnames
    have hlists : (place.map FileName.text).map String.toList =
        (place'.map FileName.text).map String.toList := by
      rw [List.map_map, List.map_map]
      exact hnames.symm
    exact (List.map_injective_iff.mpr fun _ _ h => String.toList_injective h) hlists
  · exact congrArg ("/".intercalate ·)

/-- The names of the source file are text. -/
def SourceFile.IsText (f : SourceFile) : Prop :=
  ∀ n ∈ f.steps, n.IsText

instance (f : SourceFile) : Decidable f.IsText :=
  inferInstanceAs (Decidable (∀ n ∈ f.steps, n.IsText))

/-- Different places through names that are text have different identifiers. -/
theorem SourceFile.idOf_injective {place place' : List FileName} (h : place ≠ [])
    (h' : place' ≠ []) (htext : ∀ n ∈ place, n.IsText) (htext' : ∀ n ∈ place', n.IsText)
    (heq : idOf place = idOf place') : place = place' := by
  refine FileName.eq_of_map_text_eq htext htext' ((idOf_eq_iff h h').mp heq)

/-! ## The order of a walk -/

namespace FileTree

/-- Does the first place come before the second, name by name? -/
def Earlier : List FileName → List FileName → Prop :=
  List.Lex fun a b => before a b = true

theorem not_before_self (name : FileName) : before name name = false :=
  decide_eq_false (List.lt_irrefl _)

theorem not_earlier_self (place : List FileName) : ¬ Earlier place place := by
  induction place with
  | nil => exact nofun
  | cons name place ih =>
    rintro (_ | hbefore | hrest)
    · rw [not_before_self] at hbefore
      exact Bool.false_ne_true hbefore
    · exact ih hrest

/-- Places below two entries of a directory come in the order of the entries. -/
theorem earlier_of_before {here place place' : List FileName} {name name' : FileName}
    (hplace : here ++ [name] <+: place) (hplace' : here ++ [name'] <+: place')
    (hbefore : before name name' = true) : Earlier place place' := by
  obtain ⟨rest, rfl⟩ := hplace
  obtain ⟨rest', rfl⟩ := hplace'
  rw [List.append_assoc, List.append_assoc, Earlier]
  exact List.Lex.append_left (fun a b => before a b = true) (.rel hbefore) here

section Walk

variable (passedOver : List FileName → Bool)

mutual

/-- What is found on a walk is below where it starts. -/
theorem prefix_of_mem_walk (limit : Option Nat) (here : List FileName) :
    ∀ (tree : FileTree), ∀ place ∈ walk passedOver limit here tree, here <+: place
  | .file _, place, hplace => by
    rw [walk, List.mem_singleton] at hplace
    exact hplace ▸ List.prefix_rfl
  | .directory entries, place, hplace => by
    rw [walk] at hplace
    split at hplace
    · exact nomatch hplace
    · obtain ⟨entry, -, hprefix⟩ :=
        exists_prefix_of_mem_walkEntries _ here entries place hplace
      exact (List.prefix_append here [entry.1]).trans hprefix

/-- What is found in a directory is below one of its entries. -/
theorem exists_prefix_of_mem_walkEntries (limit : Option Nat) (here : List FileName) :
    ∀ (entries : List (FileName × FileTree)),
      ∀ place ∈ walkEntries passedOver limit here entries,
        ∃ entry ∈ entries, here ++ [entry.1] <+: place
  | [], place, hplace => by
    rw [walkEntries] at hplace
    exact nomatch hplace
  | (name, sub) :: rest, place, hplace => by
    rw [walkEntries, List.mem_append] at hplace
    rcases hplace with hplace | hplace
    · split at hplace
      · exact nomatch hplace
      · exact ⟨_, List.mem_cons_self,
          prefix_of_mem_walk limit (here ++ [name]) sub place hplace⟩
    · obtain ⟨entry, hentry, hprefix⟩ :=
        exists_prefix_of_mem_walkEntries limit here rest place hplace
      exact ⟨entry, List.mem_cons_of_mem _ hentry, hprefix⟩

end

mutual

/-- The places on a walk come in order. -/
theorem pairwise_walk (limit : Option Nat) (here : List FileName) :
    ∀ (tree : FileTree), tree.IsOrdered →
      (walk passedOver limit here tree).Pairwise Earlier
  | .file _, _ => by
    rw [walk]
    exact List.pairwise_singleton _ _
  | .directory entries, h => by
    obtain ⟨hpairs, hall⟩ := isOrdered_directory.mp h
    rw [walk]
    split
    · exact List.Pairwise.nil
    · exact pairwise_walkEntries _ here entries hpairs hall

theorem pairwise_walkEntries (limit : Option Nat) (here : List FileName) :
    ∀ (entries : List (FileName × FileTree)),
      entries.Pairwise (fun a b => before a.1 b.1) → (∀ entry ∈ entries, entry.2.IsOrdered) →
        (walkEntries passedOver limit here entries).Pairwise Earlier
  | [], _, _ => by
    rw [walkEntries]
    exact List.Pairwise.nil
  | (name, sub) :: rest, hpairs, hall => by
    obtain ⟨hfirst, hpairs⟩ := List.pairwise_cons.mp hpairs
    obtain ⟨hsub, hall⟩ := List.forall_mem_cons.mp hall
    rw [walkEntries, List.pairwise_append]
    refine ⟨?_, pairwise_walkEntries limit here rest hpairs hall, ?_⟩
    · split
      · exact List.Pairwise.nil
      · exact pairwise_walk limit (here ++ [name]) sub hsub
    · intro place hplace place' hplace'
      obtain ⟨entry, hentry, hprefix'⟩ :=
        exists_prefix_of_mem_walkEntries passedOver limit here rest place' hplace'
      refine earlier_of_before ?_ hprefix' (hfirst entry hentry)
      split at hplace
      · exact nomatch hplace
      · exact prefix_of_mem_walk passedOver limit _ sub place hplace

end

end Walk

/-- What stands in an ordered tree is ordered. -/
theorem isOrdered_find? {tree sub : FileTree} {place : List FileName} (h : tree.IsOrdered)
    (hsub : tree.find? place = some sub) : sub.IsOrdered := by
  induction place generalizing tree with
  | nil =>
    rw [find?_nil] at hsub
    exact Option.some.inj hsub ▸ h
  | cons name place ih =>
    rw [find?_cons] at hsub
    obtain ⟨child, hchild, hfind⟩ := Option.bind_eq_some_iff.mp hsub
    exact ih (isOrdered_child? h hchild) hfind

end FileTree

/-! ## Source files -/

namespace Configuration

variable {c : Configuration} {tree : FileTree} {sources : List SourceFile}

/-- The source files of an ordered tree come in the order of their places, and the root is none. -/
theorem pairwise_of_discover (h : tree.IsOrdered) (hsources : c.discover tree = .ok sources) :
    (∀ f ∈ sources, f.steps ≠ []) ∧
      sources.Pairwise fun f f' => FileTree.Earlier f.steps f'.steps := by
  unfold discover at hsources
  split at hsources
  · cases hsources
  split at hsources
  · cases hsources
  obtain rfl := Except.ok.inj hsources
  unfold selectFiles
  constructor
  · intro f hf
    obtain ⟨place, hplace, rfl⟩ := List.mem_map.mp hf
    have hselected := (List.mem_filter.mp hplace).2
    simp only [Bool.and_eq_true, Bool.not_eq_true', List.isEmpty_eq_false_iff] at hselected
    exact hselected.1.1
  · rw [List.pairwise_map]
    exact (FileTree.pairwise_walk _ _ _ tree h).filter _

/-- No source file comes twice. -/
theorem nodup_of_discover (h : tree.IsOrdered) (hsources : c.discover tree = .ok sources) :
    sources.Nodup := by
  refine (pairwise_of_discover h hsources).2.imp fun hearlier heq => ?_
  rw [heq] at hearlier
  exact FileTree.not_earlier_self _ hearlier

/-- No two source files have the same identifier, if all their names are text. -/
theorem nodup_ids_of_discover (h : tree.IsOrdered) (hsources : c.discover tree = .ok sources)
    (htext : ∀ f ∈ sources, f.IsText) : (sources.map SourceFile.id).Nodup := by
  have hsteps := (pairwise_of_discover h hsources).1
  refine List.Nodup.map_on (fun f hf f' hf' heq => ?_) (nodup_of_discover h hsources)
  exact congrArg SourceFile.mk (SourceFile.idOf_injective (hsteps f hf) (hsteps f' hf')
    (htext f hf) (htext f' hf') heq)

end Configuration

end DepGraph

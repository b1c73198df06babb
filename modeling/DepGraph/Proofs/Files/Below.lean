import DepGraph.Proofs.Files.Walk
import DepGraph.Proofs.Files.Written

/-!
# Paths below a directory

The steps from one path to another are what an identifier shows. A path in normal form that starts
with the path of a directory is the path through the names of the directory and some more.

- `startsWith_ofNames_iff`, `strip?_ofNames`: what starts with the path of a directory.
- `relativeId?_eq_some_iff`: which paths have an identifier below a directory, and which one.
- `relativeId?_ofNames_iff`: the same for paths in normal form.
- `written_ofNames_concat`: a path is written as its directory and its last name.
- `splitExtension_eq_some_iff`: which names have an extension.
-/

namespace DepGraph

namespace Path

open SourceFile

/-! ## Paths from a directory -/

theorem dropStart_eq_some_iff {α : Type} [DecidableEq α] {start parts rest : List α} :
    dropStart start parts = some rest ↔ parts = start ++ rest := by
  induction start generalizing parts with
  | nil =>
    rw [dropStart, Option.some.injEq]
    rfl
  | cons a start ih =>
    cases parts with
    | nil => simp [dropStart]
    | cons b parts =>
      rw [dropStart, List.cons_append, List.cons.injEq, ← ih]
      by_cases heq : a = b
      · simp [heq]
      · simp [heq, Ne.symm heq]

theorem strip?_ofNames_iff {root : List FileName} {p q : Path} :
    strip? (ofNames root) p = some q ↔
      ∃ parts, p = ⟨.root, root.map .name ++ parts⟩ ∧ q = ⟨.implicit, parts⟩ := by
  obtain ⟨start, parts⟩ := p
  unfold strip? ofNames
  rw [if_neg (by simp)]
  by_cases hstart : start = .root
  · subst hstart
    rw [if_pos (by simp), Option.map_eq_some_iff]
    simp only [dropStart_eq_some_iff, mk.injEq, true_and]
    exact exists_congr fun rest => and_congr_right fun _ => eq_comm
  · rw [if_neg (by simpa using Ne.symm hstart)]
    simp [hstart]

theorem startsWith_ofNames_iff {root : List FileName} {p : Path} :
    p.startsWith (ofNames root) = true ↔ ∃ parts, p = ⟨.root, root.map .name ++ parts⟩ := by
  unfold startsWith
  rw [Option.isSome_iff_exists]
  simp only [strip?_ofNames_iff]
  constructor
  · rintro ⟨_, parts, hp, -⟩
    exact ⟨parts, hp⟩
  · rintro ⟨parts, hp⟩
    exact ⟨_, parts, hp, rfl⟩

/-- A path in normal form that starts at the root goes through names only. -/
theorem normalize_eq_ofNames_of_startsWith {root : List FileName} {p : Path}
    (h : p.normalize.startsWith (ofNames root) = true) : p.normalize = ofNames p.resolved := by
  obtain ⟨parts, hp⟩ := startsWith_ofNames_iff.mp h
  exact congrArg (fun start => Path.mk start (p.resolved.map .name)) (congrArg Path.start hp)

theorem map_name_injective {names names' : List FileName}
    (h : names.map PathPart.name = names'.map PathPart.name) : names = names' :=
  (List.map_injective_iff.mpr fun _ _ heq => PathPart.name.inj heq) h

/-- What stands after some names in a row of names is a row of names. -/
theorem exists_names_of_map_name_eq_append {names root : List FileName} {parts : List PathPart}
    (h : names.map .name = root.map .name ++ parts) :
    ∃ steps : List FileName, names = root ++ steps ∧ parts = steps.map .name := by
  obtain ⟨start, steps, rfl, hstart, rfl⟩ := List.map_eq_append_iff.mp h
  obtain rfl := map_name_injective hstart
  exact ⟨steps, rfl, rfl⟩

theorem strip?_ofNames {root names : List FileName} {q : Path} :
    strip? (ofNames root) (ofNames names) = some q ↔
      ∃ steps : List FileName, names = root ++ steps ∧ q = ⟨.implicit, steps.map .name⟩ := by
  rw [strip?_ofNames_iff]
  constructor
  · rintro ⟨parts, hparts, rfl⟩
    obtain ⟨steps, rfl, rfl⟩ := exists_names_of_map_name_eq_append (congrArg Path.parts hparts)
    exact ⟨steps, rfl, rfl⟩
  · rintro ⟨steps, rfl, rfl⟩
    exact ⟨_, by rw [ofNames, List.map_append], rfl⟩

/-- What is shown of parts, joined by slashes. -/
def identifierOf (parts : List PathPart) : String :=
  "/".intercalate (parts.map PathPart.text)

theorem identifierOf_map_name (steps : List FileName) :
    identifierOf (steps.map .name) = idOf steps := by
  rw [identifierOf, List.map_map]
  rfl

theorem identifierOf_eq (parts : List PathPart) :
    identifierOf parts =
      "/".intercalate ((⟨.implicit, parts⟩ : Path).components.map WrittenPath.text) := by
  rw [components, List.nil_append, List.map_map]
  rfl

/-- The identifiers below a directory are those of the parts after it. -/
theorem relativeId?_eq_some_iff {root : List FileName} {p : Path} {id : String} :
    relativeId? (ofNames root) p = some id ↔
      ∃ parts, parts ≠ [] ∧ p = ⟨.root, root.map .name ++ parts⟩ ∧ id = identifierOf parts := by
  unfold relativeId?
  constructor
  · intro h
    split at h
    · exact nomatch h
    · exact nomatch h
    · next texts hne htexts =>
      obtain ⟨q, hstrip, rfl⟩ := Option.map_eq_some_iff.mp htexts
      obtain ⟨parts, rfl, rfl⟩ := strip?_ofNames_iff.mp hstrip
      refine ⟨parts, ?_, rfl, (Option.some.inj h).symm.trans (identifierOf_eq parts).symm⟩
      rintro rfl
      exact hne rfl
  · rintro ⟨parts, hne, rfl, rfl⟩
    obtain ⟨first, rest, rfl⟩ := List.exists_cons_of_ne_nil hne
    rw [strip?_ofNames_iff.mpr ⟨_, rfl, rfl⟩, identifierOf_eq]
    rfl

/-- Of a path in normal form, they are those of the steps from there. -/
theorem relativeId?_ofNames_iff {root names : List FileName} {id : String} :
    relativeId? (ofNames root) (ofNames names) = some id ↔
      ∃ steps, steps ≠ [] ∧ names = root ++ steps ∧ id = idOf steps := by
  rw [relativeId?_eq_some_iff]
  constructor
  · rintro ⟨parts, hne, hparts, rfl⟩
    obtain ⟨steps, rfl, rfl⟩ := exists_names_of_map_name_eq_append (congrArg Path.parts hparts)
    exact ⟨steps, fun hnil => hne (List.map_eq_nil_iff.mpr hnil), rfl, identifierOf_map_name steps⟩
  · rintro ⟨steps, hne, rfl, rfl⟩
    exact ⟨steps.map .name, fun hnil => hne (List.map_eq_nil_iff.mp hnil),
      by rw [ofNames, List.map_append], (identifierOf_map_name steps).symm⟩

/-! ## The last name -/

theorem fileName?_ofNames (names : List FileName) : (ofNames names).fileName? = names.getLast? := by
  unfold fileName? ofNames
  rw [List.getLast?_map]
  cases names.getLast? <;> rfl

theorem withFileName_ofNames (names : List FileName) (n m : FileName) :
    (ofNames (names ++ [n])).withFileName m.bytes = ofNames (names ++ [m]) := by
  unfold withFileName
  rw [fileName?_ofNames, List.getLast?_concat, FileName.ofBytes?_bytes]
  simp [ofNames]

/-- Between the pieces and before the first one stands the same separator. -/
theorem cons_intercalate {α : Type} (c : α) {pieces : List (List α)} (h : pieces ≠ []) :
    c :: [c].intercalate pieces = pieces.flatMap (c :: ·) := by
  induction pieces with
  | nil => exact absurd rfl h
  | cons piece pieces ih =>
    cases pieces with
    | nil => simp
    | cons next pieces =>
      rw [List.intercalate_cons_cons, List.flatMap_cons, ← ih (List.cons_ne_nil next pieces)]
      simp

/-- What is written of a directory, up to the name of a file in it. -/
def directoryBytes (names : List FileName) : List UInt8 :=
  names.flatMap (fun n => WrittenPath.separator :: n.bytes) ++ [WrittenPath.separator]

/-- A file is written after its directory. -/
theorem written_ofNames_concat (names : List FileName) (n : FileName) :
    (ofNames (names ++ [n])).written = ⟨directoryBytes names ++ n.bytes⟩ := by
  rw [written_ofNames, WrittenPath.ofComponents, List.map_map,
    cons_intercalate _ (by simp), List.flatMap_map, List.flatMap_append, directoryBytes]
  simp [FileName.written]

theorem directoryBytes_concat (names : List FileName) (n : FileName) :
    directoryBytes (names ++ [n]) = directoryBytes names ++ n.bytes ++ [WrittenPath.separator] := by
  simp [directoryBytes]

/-- What stands before and after the last dot of a name that does not start with it. -/
theorem splitExtension_eq_some_iff {name stem extension : List UInt8} :
    splitExtension name = (stem, some extension) ↔
      name = stem ++ 0x2e :: extension ∧ 0x2e ∉ extension ∧ stem ≠ [] := by
  constructor
  · intro h
    unfold splitExtension at h
    dsimp only at h
    split at h
    · exact nomatch h
    next dot rest hrest =>
    split at h
    · exact nomatch h
    next hne =>
    obtain ⟨rfl, hextension⟩ := Prod.mk.inj h
    obtain rfl := Option.some.inj hextension
    -- read backwards, the extension is what stands before the first dot
    refine ⟨?_, ?_, by simpa using hne⟩
    · have hdot : dot = 0x2e := by
        have hhead := List.head?_dropWhile_not (· != 0x2e) name.reverse
        rw [hrest] at hhead
        simpa using hhead
      have hback := (List.takeWhile_append_dropWhile (p := (· != 0x2e)) (l := name.reverse)).symm
      rw [hrest, hdot] at hback
      have hname := congrArg List.reverse hback
      rwa [List.reverse_reverse, List.reverse_append, List.reverse_cons, List.append_assoc] at hname
    · intro hmem
      have hall := List.all_takeWhile (p := (· != 0x2e)) (l := name.reverse)
      simpa using List.all_eq_true.mp hall _ (List.mem_reverse.mp hmem)
  · rintro ⟨rfl, hnot, hne⟩
    have hextension : ∀ c ∈ extension.reverse, (c != 0x2e) = true := by
      intro c hc
      rw [bne_iff_ne]
      rintro rfl
      exact hnot (List.mem_reverse.mp hc)
    unfold splitExtension
    simp only [List.reverse_append, List.reverse_cons, List.append_assoc]
    rw [List.dropWhile_append_of_pos hextension, List.takeWhile_append_of_pos hextension]
    simp [hne]

end Path

end DepGraph

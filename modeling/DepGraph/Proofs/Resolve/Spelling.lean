import DepGraph.Proofs.Resolve.Beside

/-!
# Spellings of a file

A path may lead to a file in many ways: every step up takes back the step before it. Whether a path
leads below the root, and under which identifier, is decided part by part, and steps up are parts
like others. So a path that starts with the root counts as below it, wherever it leads, and each
spelling of a file has an identifier of its own.

- `PathPart.text_eq_dots_iff`: a step up is shown like no name.
- `Path.identifierOf_eq_iff`: parts have one identifier if they are shown alike.
- `Path.normalize_eq_self_iff`: the absolute paths in normal form.
- `Resolution.isSome_file_iff`: the paths that are answered.
- `Resolution.keeps_iff`: the answers that are right about where the path leads.
- `Resolution.id_eq_id_iff`: answers under one identifier are answers for paths that are shown alike.
- `Resolution.file_of_any_spelling`: all this of every path.
- `Resolution.spelling_matters`: some paths lead out of the root, and some lead to one file under
  two identifiers.
-/

namespace DepGraph

/-! ## What is shown of parts -/

namespace PathPart

theorem text_up : up.text = ".." :=
  WrittenPath.text_ofText ".."

theorem text_eq_dots_iff {part : PathPart} : part.text = ".." ↔ part = .up := by
  cases part with
  | up => exact iff_of_true text_up rfl
  | name n => exact iff_of_false n.text_ne_dots (by simp)

theorem slash_not_mem_text (part : PathPart) : '/' ∉ part.text.toList := by
  cases part with
  | up =>
    rw [text_up]
    decide
  | name n => exact n.slash_not_mem_text

/-- The part is a step up, or a name that is text. -/
def IsText : PathPart → Prop
  | up => True
  | name n => n.IsText

instance (part : PathPart) : Decidable part.IsText :=
  match part with
  | up => inferInstanceAs (Decidable True)
  | name n => inferInstanceAs (Decidable n.IsText)

/-- Parts that are text are told by what is shown of them. -/
theorem IsText.eq_of_text_eq {a b : PathPart} (ha : a.IsText) (hb : b.IsText)
    (h : a.text = b.text) : a = b := by
  cases a with
  | up => exact (text_eq_dots_iff.mp (h.symm.trans text_up)).symm
  | name n =>
    cases b with
    | up => exact text_eq_dots_iff.mp (h.trans text_up)
    | name m => exact congrArg name (FileName.IsText.eq_of_text_eq ha hb h)

end PathPart

namespace Path

theorem splitOn_identifierOf {parts : List PathPart} (h : parts ≠ []) :
    (identifierOf parts).toList.splitOn '/' = (parts.map PathPart.text).map String.toList := by
  refine splitOn_intercalate_slash (by simpa using h) fun text htext => ?_
  obtain ⟨part, -, rfl⟩ := List.mem_map.mp htext
  exact part.slash_not_mem_text

/-- Parts have one identifier if they are shown alike. -/
theorem identifierOf_eq_iff {parts parts' : List PathPart} (h : parts ≠ []) (h' : parts' ≠ []) :
    identifierOf parts = identifierOf parts' ↔
      parts.map PathPart.text = parts'.map PathPart.text := by
  constructor
  · intro heq
    have htexts := splitOn_identifierOf h
    rw [heq, splitOn_identifierOf h'] at htexts
    exact (List.map_injective_iff.mpr fun _ _ heq => String.toList_injective heq) htexts.symm
  · exact congrArg ("/".intercalate ·)

/-- Parts that are shown alike lead up alike. -/
theorem up_mem_iff_of_map_text_eq {parts parts' : List PathPart}
    (h : parts.map PathPart.text = parts'.map PathPart.text) : .up ∈ parts ↔ .up ∈ parts' := by
  have hshown : ∀ parts : List PathPart, .up ∈ parts ↔ ".." ∈ parts.map PathPart.text := by
    intro parts
    rw [List.mem_map]
    constructor
    · exact fun hmem => ⟨_, hmem, PathPart.text_up⟩
    · rintro ⟨part, hmem, htext⟩
      exact PathPart.text_eq_dots_iff.mp htext ▸ hmem
  rw [hshown, h, ← hshown]

/-- The parts of the path are text. -/
def IsText (p : Path) : Prop :=
  ∀ part ∈ p.parts, part.IsText

/-! ## Normal form -/

theorem up_not_mem_map_name (names : List FileName) : PathPart.up ∉ names.map PathPart.name := by
  simp

/-- Parts that do not lead up are names. -/
theorem exists_names_of_up_not_mem {parts : List PathPart} (h : .up ∉ parts) :
    ∃ names : List FileName, parts = names.map .name := by
  induction parts with
  | nil => exact ⟨[], rfl⟩
  | cons part parts ih =>
    obtain ⟨names, rfl⟩ := ih fun hmem => h (List.mem_cons_of_mem part hmem)
    cases part with
    | up => exact absurd List.mem_cons_self h
    | name n => exact ⟨n :: names, rfl⟩

/-- An absolute path is in normal form if no part of it leads up. -/
theorem normalize_eq_self_iff {parts : List PathPart} :
    normalize ⟨.root, parts⟩ = ⟨.root, parts⟩ ↔ .up ∉ parts := by
  constructor
  · intro h
    have hnames : (resolved ⟨.root, parts⟩).map .name = parts := congrArg Path.parts h
    rw [← hnames]
    exact up_not_mem_map_name _
  · intro h
    obtain ⟨names, rfl⟩ := exists_names_of_up_not_mem h
    rw [normalize, resolved, resolveFrom_map_name, List.append_nil, List.reverse_reverse]
    rfl

end Path

namespace Resolution

open DepGraph.Path

/-! ## Answers for any path -/

section

variable {root : List FileName}

/-- The paths that are answered start with the root and end in a name. -/
theorem isSome_file_iff {p : Path} :
    (file (.ofNames root) p).isSome = true ↔
      ∃ parts n, p = ⟨.root, root.map .name ++ (parts ++ [.name n])⟩ := by
  constructor
  · intro h
    obtain ⟨r, hr⟩ := Option.isSome_iff_exists.mp h
    obtain ⟨parts, hne, rfl, -⟩ := relativeId?_eq_some_iff.mp (relativeId?_of_file hr).1
    obtain ⟨front, last, rfl⟩ := (List.eq_nil_or_concat parts).resolve_left hne
    cases last with
    | name n => exact ⟨front, n, by rw [List.concat_eq_append]⟩
    | up =>
      -- without a last name there is no answer
      rw [file, fileName?, List.concat_eq_append, ← List.append_assoc, List.getLast?_concat] at hr
      split at hr
      · next hname => exact nomatch hname
      · exact nomatch hr
  · rintro ⟨parts, n, rfl⟩
    have hid : relativeId? (.ofNames root) ⟨.root, root.map .name ++ (parts ++ [.name n])⟩ =
        some (identifierOf (parts ++ [.name n])) :=
      relativeId?_eq_some_iff.mpr
        ⟨_, List.append_ne_nil_of_right_ne_nil _ (List.cons_ne_nil _ _), rfl, rfl⟩
    have hname : fileName? ⟨.root, root.map .name ++ (parts ++ [.name n])⟩ = some n := by
      rw [fileName?, ← List.append_assoc, List.getLast?_concat]
    rw [file, hid, hname]
    rfl

variable {p q : Path} {r s : Resolution}

/-- The path leads below the root, and the answer has the identifier of where it leads. -/
def Keeps (root : List FileName) (p : Path) (r : Resolution) : Prop :=
  p.normalize.IsBelow root ∧ relativeId? (.ofNames root) p.normalize = some r.id

/-- An answer is right about where the path leads if no part of the path leads up. -/
theorem keeps_iff (h : file (.ofNames root) p = some r) : Keeps root p r ↔ .up ∉ p.parts := by
  obtain ⟨hid, -⟩ := relativeId?_of_file h
  obtain ⟨parts, hne, rfl, hshown⟩ := relativeId?_eq_some_iff.mp hid
  constructor
  · rintro ⟨⟨steps, -, hsteps⟩, hnormal⟩
    obtain ⟨parts', hne', hparts', hshown'⟩ := relativeId?_eq_some_iff.mp hnormal
    have htexts := (identifierOf_eq_iff hne hne').mp (hshown.symm.trans hshown')
    -- the normal form goes through names, and the path is shown like it below the root
    have hup : PathPart.up ∉ parts' := by
      intro hmem
      have hnames : (root ++ steps).map .name = root.map .name ++ parts' :=
        congrArg Path.parts (hsteps.symm.trans hparts')
      exact up_not_mem_map_name (root ++ steps) (hnames ▸ List.mem_append_right _ hmem)
    rw [List.mem_append, not_or, up_mem_iff_of_map_text_eq htexts]
    exact ⟨up_not_mem_map_name root, hup⟩
  · intro hup
    have hself := normalize_eq_self_iff.mpr hup
    refine ⟨?_, by rw [hself, hid]⟩
    rw [hself]
    obtain ⟨names, hnames⟩ := exists_names_of_up_not_mem hup
    obtain ⟨steps, rfl, rfl⟩ := exists_names_of_map_name_eq_append hnames.symm
    refine ⟨steps, fun hnil => hne (List.map_eq_nil_iff.mpr hnil), ?_⟩
    rw [ofNames, List.map_append]

/-- Answers under one identifier are answers for paths that are shown alike. -/
theorem id_eq_id_iff (hp : file (.ofNames root) p = some r) (hq : file (.ofNames root) q = some s) :
    r.id = s.id ↔ p.parts.map PathPart.text = q.parts.map PathPart.text := by
  obtain ⟨parts, hne, rfl, hid⟩ := relativeId?_eq_some_iff.mp (relativeId?_of_file hp).1
  obtain ⟨parts', hne', rfl, hid'⟩ := relativeId?_eq_some_iff.mp (relativeId?_of_file hq).1
  rw [hid, hid', identifierOf_eq_iff hne hne', List.map_append, List.map_append,
    List.append_cancel_left_eq]

/-- If their parts are text, they are answers for one path. -/
theorem id_eq_id_iff_of_isText (hp : file (.ofNames root) p = some r)
    (hq : file (.ofNames root) q = some s) (htext : p.IsText) (htext' : q.IsText) :
    r.id = s.id ↔ p = q := by
  rw [id_eq_id_iff hp hq]
  constructor
  · intro hshown
    obtain ⟨parts, -, rfl, -⟩ := relativeId?_eq_some_iff.mp (relativeId?_of_file hp).1
    obtain ⟨parts', -, rfl, -⟩ := relativeId?_eq_some_iff.mp (relativeId?_of_file hq).1
    exact congrArg (Path.mk .root)
      (eq_of_map_eq_map (fun a ha b hb => (htext a ha).eq_of_text_eq (htext' b hb)) hshown)
  · exact fun heq => by rw [heq]

end

/-- Whatever path is given, the answer is right about where it leads exactly if no part of the path
leads up, and two spellings have the same identifier only if they are shown alike, so never if their
parts are text. -/
theorem file_of_any_spelling (root : List FileName) :
    (∀ p, (file (.ofNames root) p).isSome = true ↔
      ∃ parts n, p = ⟨.root, root.map .name ++ (parts ++ [.name n])⟩) ∧
    (∀ p r, file (.ofNames root) p = some r → (Keeps root p r ↔ .up ∉ p.parts)) ∧
    ∀ p q r s, file (.ofNames root) p = some r → file (.ofNames root) q = some s →
      (r.id = s.id ↔ p.parts.map PathPart.text = q.parts.map PathPart.text) ∧
        (p.IsText → q.IsText → (r.id = s.id ↔ p = q)) :=
  ⟨fun _ => isSome_file_iff, fun _ _ => keeps_iff,
    fun _ _ _ _ hp hq => ⟨id_eq_id_iff hp hq, id_eq_id_iff_of_isText hp hq⟩⟩

/-- A path through a directory and back, which need not be there, and the path without the detour. -/
theorem file_of_any_spelling_detour :
    (∃ r, file (.ofNames [.named "repo"]) (.ofText "/repo/src/../a.ts") = some r ∧
      ¬ Keeps [.named "repo"] (.ofText "/repo/src/../a.ts") r) ∧
    ∀ r s, file (.ofNames [.named "repo"]) (.ofText "/repo/src/../a.ts") = some r →
      file (.ofNames [.named "repo"]) (.ofText "/repo/a.ts") = some s → r.id ≠ s.id := by
  obtain ⟨hsome, hkeeps, hid⟩ := file_of_any_spelling [.named "repo"]
  constructor
  · have hr := (hsome (.ofText "/repo/src/../a.ts")).mpr
      ⟨[.name (.named "src"), .up], .named "a.ts", by decide +kernel⟩
    obtain ⟨r, hr⟩ := Option.isSome_iff_exists.mp hr
    refine ⟨r, hr, fun hkept => absurd ((hkeeps _ r hr).mp hkept) (by decide +kernel)⟩
  · intro r s hr hs heq
    exact absurd ((hid _ _ r s hr hs).1.mp heq) (by decide +kernel)

/-- An answer need not lead below the root, and two answers that lead to one file need not have the
same identifier. -/
theorem spelling_matters :
    (¬ ∀ root p r, file (.ofNames root) p = some r → p.normalize.IsBelow root) ∧
      ¬ ∀ root p q r s, file (.ofNames root) p = some r → file (.ofNames root) q = some s →
        p.normalize = q.normalize → r.id = s.id := by
  constructor
  · intro hbelow
    have hfile : (file (.ofNames [.named "repo"]) (.ofText "/repo/../etc/passwd")).isSome =
        true := by
      decide +kernel
    obtain ⟨r, hr⟩ := Option.isSome_iff_exists.mp hfile
    obtain ⟨steps, -, hsteps⟩ := hbelow _ _ r hr
    -- the path leads to another directory of the root of all files
    have hstarts : (Path.ofText "/repo/../etc/passwd").normalize.startsWith
        (.ofNames [.named "repo"]) = true :=
      startsWith_ofNames_iff.mpr ⟨steps.map .name, by rw [hsteps, ofNames, List.map_append]⟩
    exact absurd hstarts (by decide +kernel)
  · intro hsame
    have hdetour : (file (.ofNames [.named "repo"]) (.ofText "/repo/src/../a.ts")).map (·.id) =
        some "src/../a.ts" := by
      decide +kernel
    have hstraight : (file (.ofNames [.named "repo"]) (.ofText "/repo/a.ts")).map (·.id) =
        some "a.ts" := by
      decide +kernel
    obtain ⟨r, hr, hid⟩ := Option.map_eq_some_iff.mp hdetour
    obtain ⟨s, hs, hid'⟩ := Option.map_eq_some_iff.mp hstraight
    have heq := hsame _ _ _ r s hr hs (by decide +kernel)
    rw [hid, hid'] at heq
    exact absurd heq (by decide)

end Resolution

end DepGraph

import DepGraph.Proofs.Source.PythonPages

/-!
# What a scan can find

Whatever a Python source says, what the scanner finds in it has a form that a resolver can rely on.
A specifier is a module path, though one kind of statement puts it together from dots and a name. It
stands on a line of the source, and what is found later stands no higher, though a statement in
parentheses counts for the line on which it starts.

- `ModulePath`, `isModulePath_iff`: what module paths are; `PublicName`: what exported names are.
- `Found`: an import that may be found in so many lines; `WellFormed`: all that may be found there.
- `found_of_mem_statementImports`: a statement gives module paths on its line.
- `PythonScan.Sound`: what a scan has found, and on which line it may still find something.
- `PythonScan.sound_readLine`: one line, and `PythonScan.sound_readLines`: any number of them.
- `scan_wellFormed`: what every scan finds is well formed, and no such specifier or name is out of
  reach.
-/

namespace DepGraph.Python

open DepGraph.Text

/-! ## Module paths and public names -/

/-- Dots, if any, and then identifiers with single dots between them. -/
def ModulePath (text : List Char) : Prop :=
  ∃ (dots : Nat) (names : List (List Char)), names ≠ [] ∧
    (∀ name ∈ names, isIdentifier name = true) ∧
      text = List.replicate dots '.' ++ ['.'].intercalate names

/-- Letters, digits and underscores, and no underscore first. -/
def PublicName (text : List Char) : Prop :=
  text ≠ [] ∧ (∀ c ∈ text, isWordChar c = true) ∧ text.head? ≠ some '_'

theorem dot_not_mem_of_isIdentifier {name : List Char} (h : isIdentifier name = true) :
    '.' ∉ name := by
  intro hdot
  exact absurd ((all_isWordChar_of_isIdentifier h).2 '.' hdot) (by decide)

/-- Identifiers that are joined start with the first character of the first one. -/
theorem exists_cons_intercalate {names : List (List Char)} (hne : names ≠ [])
    (h : ∀ name ∈ names, isIdentifier name = true) :
    ∃ c rest, ['.'].intercalate names = c :: rest ∧ c ≠ '.' := by
  obtain ⟨first, others, rfl⟩ := List.exists_cons_of_ne_nil hne
  have hfirst := h first (List.mem_cons_self ..)
  obtain ⟨c, tail, rfl⟩ := List.exists_cons_of_ne_nil (all_isWordChar_of_isIdentifier hfirst).1
  have hc : c ≠ '.' := (List.ne_of_not_mem_cons (dot_not_mem_of_isIdentifier hfirst)).symm
  cases others with
  | nil => exact ⟨c, tail, List.intercalate_singleton, hc⟩
  | cons next others => exact ⟨c, _, List.intercalate_cons_cons, hc⟩

theorem isModulePath_iff {text : List Char} : isModulePath text = true ↔ ModulePath text := by
  have hsplit : ∀ body, splitAt (· == '.') body = body.splitOn '.' := fun body =>
    splitAt_eq_splitOnP _ body
  simp only [isModulePath, Bool.and_eq_true, Bool.not_eq_true', List.isEmpty_eq_false_iff, hsplit,
    List.all_eq_true]
  constructor
  · rintro ⟨-, hnames⟩
    have hdots : ∀ c ∈ text.takeWhile (· == '.'), c = '.' := fun c hc =>
      beq_iff_eq.mp (@List.mem_takeWhile_imp _ (· == '.') text c hc)
    refine ⟨(text.takeWhile (· == '.')).length, _, List.splitOn_ne_nil _ _, hnames, ?_⟩
    rw [← List.eq_replicate_of_mem hdots, List.intercalate_splitOn,
      List.takeWhile_append_dropWhile]
  · rintro ⟨dots, names, hne, hnames, rfl⟩
    obtain ⟨c, rest, hbody, hc⟩ := exists_cons_intercalate hne hnames
    have hdots : ∀ c ∈ List.replicate dots '.', (c == '.') = true := fun c hc =>
      beq_iff_eq.mpr (List.eq_of_mem_replicate hc)
    -- no more is taken away than the dots before the first name
    have hdrop : (List.replicate dots '.' ++ ['.'].intercalate names).dropWhile (· == '.') =
        ['.'].intercalate names := by
      rw [List.dropWhile_append_of_pos hdots, hbody, List.dropWhile_cons_of_neg (by simpa using hc)]
    rw [hdrop, List.splitOn_intercalate '.'
      (fun name hname => dot_not_mem_of_isIdentifier (hnames name hname)) hne, hbody]
    exact ⟨List.cons_ne_nil c rest, hnames⟩

/-- Dots before an identifier make a module path. -/
theorem isModulePath_append {dots name : List Char} (hdots : dots.all (· == '.') = true)
    (hname : isIdentifier name = true) : isModulePath (dots ++ name) = true := by
  rw [List.all_eq_true] at hdots
  refine isModulePath_iff.mpr ⟨dots.length, [name], List.cons_ne_nil _ _,
    List.forall_mem_singleton.mpr hname, ?_⟩
  rw [List.intercalate_singleton,
    ← List.eq_replicate_of_mem fun c hc => beq_iff_eq.mp (hdots c hc)]

/-! ## What may be found -/

/-- The import is one of a module, on one of so many lines. -/
structure Found (lineCount : Nat) (i : Import) : Prop where
  path : ModulePath i.specifier.toList
  ne_empty : i.specifier ≠ ""
  chars : ∀ c ∈ i.specifier.toList, c ≠ '/' ∧ isBlank c = false
  kind : i.kind = .static
  line_pos : 1 ≤ i.line
  line_le : i.line ≤ lineCount

/-- What may be found in a source of so many lines. -/
structure WellFormed (lineCount : Nat) (parsed : ParsedFile) : Prop where
  imports : ∀ i ∈ parsed.imports, Found lineCount i
  ascending : parsed.imports.Pairwise (·.line ≤ ·.line)
  exports : ∀ name ∈ parsed.exports, PublicName name.toList

theorem found_importAt {path : List Char} (h : isModulePath path = true) {line lineCount : Nat}
    (hpos : 1 ≤ line) (hle : line ≤ lineCount) : Found lineCount (importAt line path) := by
  obtain ⟨hne, hchars⟩ := isNaming_isModulePath path h
  have htext : (importAt line path).specifier.toList = path := String.toList_ofList
  refine ⟨?_, ?_, ?_, rfl, hpos, hle⟩
  · rw [htext, ← isModulePath_iff, h]
  · intro hempty
    rw [hempty] at htext
    exact hne htext.symm
  · rw [htext]
    intro c hc
    refine ⟨?_, isBlank_eq_false_of_isPathChar (hchars c hc)⟩
    rintro rfl
    exact absurd (hchars '/' hc) (by decide)

theorem Found.mono {lineCount more : Nat} {i : Import} (h : Found lineCount i)
    (hle : lineCount ≤ more) : Found more i :=
  { h with line_le := h.line_le.trans hle }

theorem WellFormed.mono {lineCount more : Nat} {parsed : ParsedFile}
    (h : WellFormed lineCount parsed) (hle : lineCount ≤ more) : WellFormed more parsed :=
  { h with imports := fun i hi => (h.imports i hi).mono hle }

/-! ## Statements and definitions -/

/-- A statement imports module paths, and nothing else. -/
theorem exists_of_mem_statementImports {line : Nat} {text : List Char} {i : Import}
    (h : i ∈ statementImports line text) :
    ∃ path, isModulePath path = true ∧ i = importAt line path := by
  unfold statementImports at h
  split at h
  · next clauses _ =>
    obtain ⟨path, hpath, rfl⟩ := List.mem_map.mp h
    exact ⟨path, (List.mem_filter.mp hpath).2, rfl⟩
  split at h
  · exact absurd h List.not_mem_nil
  split at h
  · exact absurd h List.not_mem_nil
  next package names _ =>
  unfold fromImports at h
  dsimp only at h
  split at h
  · next hdots =>
    -- the dots of the package before each of the names
    obtain ⟨name, hname, rfl⟩ := List.mem_map.mp h
    rw [Bool.and_eq_true] at hdots
    exact ⟨_, isModulePath_append hdots.2 (List.mem_filter.mp hname).2, rfl⟩
  split at h
  · next hpath => exact ⟨_, hpath, List.mem_singleton.mp h⟩
  · exact absurd h List.not_mem_nil

theorem found_of_mem_statementImports {line lineCount : Nat} (hpos : 1 ≤ line)
    (hle : line ≤ lineCount) {text : List Char} {i : Import} (h : i ∈ statementImports line text) :
    Found lineCount i ∧ i.line = line := by
  obtain ⟨path, hpath, rfl⟩ := exists_of_mem_statementImports h
  exact ⟨found_importAt hpath hpos hle, rfl⟩

theorem definitionName_eq_some {line name : List Char} (h : definitionName line = some name) :
    name ≠ [] ∧ ∀ c ∈ name, isWordChar c = true := by
  unfold definitionName at h
  obtain ⟨rest, -, hname⟩ := Option.bind_eq_some_iff.mp h
  dsimp only at hname
  split at hname
  · exact nomatch hname
  · next hne =>
    obtain rfl := Option.some.inj hname
    exact ⟨by simpa using hne, fun c hc => List.mem_takeWhile_imp hc⟩

/-! ## The scanner -/

namespace PythonScan

/-- What a scan has found in so many lines is well formed. If a statement is open, it starts on one
of them, and nothing that was found stands below. -/
structure Sound (s : PythonScan) (lineCount : Nat) : Prop where
  wellFormed : WellFormed lineCount s.result
  statement : ∀ text line, s.mode = .statement text line →
    1 ≤ line ∧ line ≤ lineCount ∧ ∀ i ∈ s.result.imports, i.line ≤ line

section

variable {s : PythonScan} {n : Nat}

theorem sound_init : Sound {} 0 where
  wellFormed := ⟨List.forall_mem_nil _, .nil, List.forall_mem_nil _⟩
  statement := nofun

/-- A scan that goes on in code, or in a block, has found what it had found before. -/
theorem Sound.enter (h : s.Sound n) {mode : Mode} (hmode : ∀ text line, mode ≠ .statement text line) :
    Sound { s with mode } n :=
  ⟨h.wellFormed, fun text line heq => absurd heq (hmode text line)⟩

theorem Sound.succ (h : s.Sound n) : s.Sound (n + 1) where
  wellFormed := h.wellFormed.mono (Nat.le_succ n)
  statement text line heq := by
    obtain ⟨hpos, hle, hall⟩ := h.statement text line heq
    exact ⟨hpos, Nat.le_succ_of_le hle, hall⟩

theorem imports_addStatement (s : PythonScan) (line : Nat) (text : List Char) :
    (s.addStatement line text).result.imports =
      s.result.imports ++ statementImports line text := by
  simp [addStatement, result]

/-- A finished statement, on a line that is not above anything found before. -/
theorem sound_addStatement (h : WellFormed n s.result) {line : Nat} (hpos : 1 ≤ line)
    (hle : line ≤ n) (hall : ∀ i ∈ s.result.imports, i.line ≤ line) (text : List Char) :
    (s.addStatement line text).Sound n := by
  refine ⟨⟨?_, ?_, h.exports⟩, fun _ _ hmode => ?_⟩
  · rw [imports_addStatement]
    intro i hi
    rcases List.mem_append.mp hi with hold | hnew
    · exact h.imports i hold
    · exact (found_of_mem_statementImports hpos hle hnew).1
  · have hline : ∀ i ∈ statementImports line text, i.line = line := fun i hi =>
      (found_of_mem_statementImports hpos hle hi).2
    rw [imports_addStatement, List.pairwise_append]
    refine ⟨h.ascending, List.pairwise_of_forall_mem_list fun i hi j hj => ?_, fun i hi j hj => ?_⟩
    · rw [hline i hi, hline j hj]
    · rw [hline j hj]
      exact hall i hi
  · -- no statement is open any more
    simp [addStatement] at hmode

theorem sound_addDefinition (h : s.Sound n) {line name : List Char}
    (hname : definitionName line = some name) : (s.addDefinition name).Sound n := by
  obtain ⟨hne, hword⟩ := definitionName_eq_some hname
  unfold addDefinition
  split
  · exact h
  · next hhead =>
    have hexports : ({ s with exports := s.exports.push (String.ofList name) } : PythonScan).result =
        { s.result with exports := s.result.exports ++ [String.ofList name] } := by
      simp [result]
    refine ⟨?_, fun text line hmode => h.statement text line hmode⟩
    rw [hexports]
    refine { h.wellFormed with exports := fun other hother => ?_ }
    rcases List.mem_append.mp hother with hold | hnew
    · exact h.wellFormed.exports other hold
    · rw [List.mem_singleton.mp hnew, String.toList_ofList]
      exact ⟨hne, hword, by simpa using hhead⟩

/-- Everything that was found stands above the next line. -/
theorem Sound.line_le (h : s.Sound n) : ∀ i ∈ s.result.imports, i.line ≤ n + 1 := fun i hi =>
  Nat.le_succ_of_le (h.wellFormed.imports i hi).line_le

theorem sound_readCode (h : s.Sound n) (raw : List Char) :
    (s.readCode (n + 1) raw).Sound (n + 1) := by
  unfold readCode
  dsimp only
  split
  · exact h.succ.enter nofun
  split
  · next name hname =>
    exact sound_addDefinition h.succ (Option.ite_none_right_eq_some.mp hname).2
  split
  · -- the statement that is opened starts on this line
    refine ⟨h.succ.wellFormed, fun text line hmode => ?_⟩
    obtain ⟨-, rfl⟩ := Mode.statement.inj hmode
    exact ⟨Nat.le_add_left 1 n, le_rfl, h.line_le⟩
  · exact sound_addStatement h.succ.wellFormed (Nat.le_add_left 1 n) le_rfl h.line_le _

/-- One line more. -/
theorem sound_readLine (h : s.Sound n) (raw : List Char) :
    (s.readLine (n + 1) raw).Sound (n + 1) := by
  unfold readLine
  split
  · split
    · exact h.succ.enter nofun
    · exact h.succ
  · next text start hmode =>
    obtain ⟨hpos, hle, hall⟩ := h.succ.statement text start hmode
    dsimp only
    split
    · exact sound_addStatement h.succ.wellFormed hpos hle hall _
    · -- the statement stays open, and its start is what it was
      refine ⟨h.succ.wellFormed, fun text' line hmode' => ?_⟩
      obtain ⟨-, rfl⟩ := Mode.statement.inj hmode'
      exact ⟨hpos, hle, hall⟩
  · exact sound_readCode h raw

/-- Any number of lines. -/
theorem sound_readLines (text : List (List Char)) : ∀ {s : PythonScan} {n : Nat}, s.Sound n →
    (s.readLines (n + 1) text).Sound (n + text.length) := by
  induction text with
  | nil => exact fun h => h
  | cons line text ih =>
    intro s n h
    have hrest := ih (sound_readLine h line)
    rw [readLines_cons, List.length_cons, Nat.add_comm text.length 1, ← Nat.add_assoc]
    exact hrest

end

end PythonScan

theorem wellFormed_scan (source : List Char) : WellFormed (lines source).length (scan source) := by
  have hsound := (PythonScan.sound_readLines (lines source) PythonScan.sound_init).wellFormed
  rw [Nat.zero_add] at hsound
  exact hsound

/-! ## What can be found -/

/-- A row without a margin is a line that shows it. -/
theorem IsRow.shows_self {row : List Char} (h : IsRow isStatementChar row) : Shows row row := by
  have hkept : ∀ c ∈ row, (c != '#') = true := by
    intro c hc
    rw [bne_iff_ne]
    rintro rfl
    exact h.not_mem (by decide) hc
  rw [Shows, stripComment, List.takeWhile_eq_self_iff.mpr hkept, h.trim_eq]

/-- A row is the only line of its text. -/
theorem IsRow.lines_eq {row : List Char} (h : IsRow isStatementChar row) (hne : row ≠ []) :
    lines row = [row] := by
  rw [lines_of_not_mem (h.not_mem (by decide)), List.isEmpty_eq_false_iff.mpr hne,
    if_neg Bool.false_ne_true]

/-- A row that defines a function of the given name, as far as the scanner looks at it. -/
def definitionRow (name : List Char) : List Char :=
  "def".toList ++ [' '] ++ name

section

variable {name : List Char} (hne : name ≠ []) (hword : ∀ c ∈ name, isWordChar c = true)

include hne hword

theorem isRow_definitionRow : IsRow isStatementChar (definitionRow name) := by
  have hpath : ∀ c ∈ name, isPathChar c = true := fun c hc => by
    rw [isPathChar, hword c hc, Bool.true_or]
  have hdef : IsRow isListChar "def".toList := .of_isPathChar (List.all_eq_true.mp (by decide))
  exact (hdef.append_append (by decide) (List.all_eq_true.mp (by decide)) (.of_isPathChar hpath)
    hne).of_list

theorem definitionName_definitionRow : definitionName (definitionRow name) = some name := by
  -- what follows the keyword is the name
  show (if (name.takeWhile isWordChar).isEmpty then none else some (name.takeWhile isWordChar)) = _
  rw [List.takeWhile_eq_self_iff.mpr hword, List.isEmpty_eq_false_iff.mpr hne,
    if_neg Bool.false_ne_true]

theorem readCode_definitionRow (s : PythonScan) (number : Nat) :
    s.readCode number (definitionRow name) = s.addDefinition name := by
  have hrow := isRow_definitionRow hne hword
  unfold PythonScan.readCode
  dsimp only
  rw [show trim (stripComment (definitionRow name)) = _ from hrow.shows_self,
    opensBlock_eq_none hrow.not_isQuote, definitionName_definitionRow hne hword]
  rfl

end

/-- Every public name is found where it is defined. -/
theorem exists_mem_exports_scan {name : List Char} (h : PublicName name) :
    ∃ source, String.ofList name ∈ (scan source).exports := by
  obtain ⟨hne, hword, hhead⟩ := h
  have hlines := (isRow_definitionRow hne hword).lines_eq (List.cons_ne_nil _ _)
  refine ⟨definitionRow name, ?_⟩
  show _ ∈ (PythonScan.readLines {} 1 (lines (definitionRow name))).result.exports
  rw [hlines]
  show _ ∈ (PythonScan.readCode {} 1 (definitionRow name)).result.exports
  rw [readCode_definitionRow hne hword, PythonScan.addDefinition, if_neg (by simpa using hhead)]
  exact List.mem_singleton_self _

/-- Every module path is found where a statement imports it. -/
theorem exists_mem_imports_scan {path : List Char} (h : ModulePath path) :
    ∃ source, importAt 1 path ∈ (scan source).imports := by
  have hpath := isModulePath_iff.mpr h
  refine ⟨page true (fun _ => {}) [.modules ⟨path, none, hpath, nofun⟩ []], ?_⟩
  -- one clause after the keyword has no blank before it
  have hclear : ∀ s ∈ [Statement.modules ⟨path, none, hpath, nofun⟩ []], s.Clear := by
    simp [Statement.Clear, joinedSpots, Spot.isClear]
  rw [(scan_page_iff true _ _).mpr hclear]
  exact List.mem_cons_self

/-- What every scan finds is well formed. Nothing less will do, since every module path and every
public name is found in some source. -/
theorem scan_wellFormed :
    (∀ source, WellFormed (lines source).length (scan source)) ∧
      (∀ path, ModulePath path → ∃ source, importAt 1 path ∈ (scan source).imports) ∧
        ∀ name, PublicName name → ∃ source, String.ofList name ∈ (scan source).exports :=
  ⟨wellFormed_scan, fun _ h => exists_mem_imports_scan h, fun _ h => exists_mem_exports_scan h⟩

/-- A source in which hardly anything is as it should be. -/
def garbled : List Char :=
  "import os,, x/y, .k\nfrom . import (a, # (\n  b)\nclass _K:\ndef é_1\nimport (".toList

/-- In it, four modules and one name are found. Stranger ones are found in other sources. -/
theorem scan_wellFormed_garbled :
    (WellFormed 6 (scan garbled) ∧
      (scan garbled).imports = [⟨"os", .static, 1⟩, ⟨".k", .static, 1⟩, ⟨".a", .static, 2⟩,
        ⟨".b", .static, 2⟩] ∧
      (scan garbled).exports = ["é_1"]) ∧
    (ModulePath "...é.k_1".toList ∧
      ∃ source, importAt 1 "...é.k_1".toList ∈ (scan source).imports) ∧
    PublicName "1_é".toList ∧ ∃ source, "1_é" ∈ (scan source).exports := by
  have hpath : ModulePath "...é.k_1".toList := isModulePath_iff.mp (by decide +kernel)
  have hname : PublicName "1_é".toList :=
    ⟨by decide +kernel, List.all_eq_true.mp (by decide +kernel), by decide +kernel⟩
  exact ⟨⟨scan_wellFormed.1 garbled, by decide +kernel, by decide +kernel⟩,
    ⟨hpath, scan_wellFormed.2.1 _ hpath⟩, hname, scan_wellFormed.2.2 _ hname⟩

end DepGraph.Python

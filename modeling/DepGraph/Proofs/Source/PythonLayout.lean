import DepGraph.Proofs.Source.PythonFindings
import DepGraph.Proofs.Source.PythonGaps
import Mathlib.Data.List.Induction

/-!
# The layout of a Python source

Whoever puts an empty line into a Python source, or a comment on a line of its own, does not change
what the source imports and exports. What stands below moves down by one line, and as a statement
counts for the line on which it starts, a line inside a list in parentheses moves nothing of that
list. Only inside a triple-quoted block a comment is none.

- `insertLine`: a source with one line more; `PythonScan.readLines_insertLine`: how it is read.
- `StandsIn`: an import stands in the statement that starts on its line.
- `Placed`: so do all imports that a scan has found, and it knows the start of an open statement.
- `PythonScan.placed_concat`: one line keeps this, and `PythonScan.placed_readLines`: all lines do.
- `Shifted`: two scans, of which the second has read a line more.
- `PythonScan.shifted_readLine_of_shows_nil`: that line, if nothing is left of it.
- `PythonScan.shifted_readLine`: another line, and `PythonScan.shifted_readLines`: all that follow.
- `scan_insertLine`: imports and exports stay, and exactly the imports of later statements move.
-/

namespace DepGraph.Python

open DepGraph.Text

/-! ## One line more -/

/-- Puts a line into a source, behind so many lines. The last of them gets a line feed if it has
none. -/
def insertLine (line : List Char) : Nat → List Char → List Char
  | 0, source => line ++ '\n' :: source
  | _ + 1, [] => '\n' :: (line ++ ['\n'])
  | n + 1, c :: rest => c :: insertLine line (if c = '\n' then n else n + 1) rest

theorem insertLine_append_newline (line : List Char) {first : List Char} (h : '\n' ∉ first)
    (n : Nat) (rest : List Char) :
    insertLine line (n + 1) (first ++ '\n' :: rest) = first ++ '\n' :: insertLine line n rest := by
  induction first with
  | nil => rfl
  | cons c first ih =>
    have hc : c ≠ '\n' := (List.ne_of_not_mem_cons h).symm
    rw [List.cons_append, insertLine, if_neg hc, ih (List.not_mem_of_not_mem_cons h)]
    rfl

theorem insertLine_of_not_mem (line : List Char) {source : List Char} (h : '\n' ∉ source)
    (n : Nat) : insertLine line (n + 1) source = source ++ '\n' :: (line ++ ['\n']) := by
  induction source with
  | nil => rfl
  | cons c source ih =>
    have hc : c ≠ '\n' := (List.ne_of_not_mem_cons h).symm
    rw [insertLine, if_neg hc, ih (List.not_mem_of_not_mem_cons h)]
    rfl

namespace PythonScan

/-- A line on which nothing is left is nothing to a scanner in code. -/
theorem readCode_of_shows_nil (s : PythonScan) (number : Nat) {line : List Char}
    (h : Shows line []) : s.readCode number line = { s with mode := .code } := by
  have hname : definitionName [] = none := rfl
  have hblock : opensBlock [] = none := opensBlock_eq_none (List.forall_mem_nil _)
  unfold readCode
  dsimp only
  rw [show trim (stripComment line) = [] from h, hblock, hname, ite_self]
  show ({ s with mode := .code } : PythonScan).withImports [] = _
  rw [withImports_nil]

/-- A carriage return at the end of a line is nothing to the scanner. -/
theorem readLine_withoutReturn (s : PythonScan) (number : Nat) (line : List Char) :
    s.readLine number (withoutReturn line) = s.readLine number line := by
  have hrow : Shows (withoutReturn line) (trim (stripComment line)) := Shows.withoutReturn rfl
  rcases eq_withoutReturn_or line with heq | heq
  · rw [← heq]
  generalize withoutReturn line = front at hrow heq
  subst heq
  unfold readLine
  cases s.mode with
  | code =>
    cases front with
    | nil =>
      dsimp only
      rw [@readCode_of_shows_nil s number [] rfl, readCode_of_shows_nil s number hrow.symm]
    | cons c rest =>
      -- the first character decides whether the line is at the top level
      rw [List.cons_append] at hrow ⊢
      unfold readCode
      dsimp only
      rw [show trim (stripComment (c :: rest)) = _ from hrow]
  | block d =>
    have hoccurs : occursIn d.text front = occursIn d.text (front ++ ['\r']) := by
      rw [Bool.eq_iff_iff, occursIn_iff, occursIn_iff, pieces_append (by decide)]
      simp
    dsimp only
    rw [hoccurs]
  | statement text start =>
    dsimp only
    rw [show trim (stripComment front) = _ from hrow]

/-- A source with a line more is read like its lines with that line between them. -/
theorem readLines_insertLine {line : List Char} (hline : '\n' ∉ line) :
    ∀ {n : Nat} {source : List Char}, n ≤ (lines source).length → ∀ (s : PythonScan) (number : Nat),
      s.readLines number (lines (insertLine line n source)) =
        s.readLines number ((lines source).take n ++ line :: (lines source).drop n) := by
  intro n
  induction n with
  | zero =>
    intro source _ s number
    rw [insertLine, lines_append_newline hline, readLines_cons, readLine_withoutReturn]
    rfl
  | succ n ih =>
    intro source hn s number
    rcases not_mem_or_eq_append_newline source with hsource | ⟨first, rest, rfl, hfirst⟩
    · -- all that is there is one line, which gets its line feed
      rw [insertLine_of_not_mem line hsource, lines_append_newline hsource,
        lines_append_newline hline]
      rw [lines_of_not_mem hsource] at hn ⊢
      split at hn
      · exact absurd hn (Nat.not_succ_le_zero n)
      · next hempty =>
        obtain rfl : n = 0 := Nat.le_zero.mp (Nat.le_of_succ_le_succ hn)
        rw [if_neg hempty, readLines_cons, readLines_cons, readLine_withoutReturn,
          readLine_withoutReturn]
        rfl
    · rw [insertLine_append_newline line hfirst, lines_append_newline hfirst,
        lines_append_newline hfirst, readLines_cons, List.take_succ_cons, List.drop_succ_cons,
        List.cons_append, readLines_cons]
      rw [lines_append_newline hfirst] at hn
      exact ih (Nat.le_of_succ_le_succ hn) _ _

theorem readLines_concat (s : PythonScan) (number : Nat) (text : List (List Char))
    (line : List Char) : s.readLines number (text ++ [line]) =
      (s.readLines number text).readLine (number + text.length) line := by
  rw [readLines_append]
  rfl

end PythonScan

/-! ## Where imports stand -/

/-- The lines begin a `from` import in parentheses and do not end it. -/
structure OpenList (text : List (List Char)) : Prop where
  starts : ∃ first rest, text = first :: rest ∧ "from ".toList <+: trim (stripComment first) ∧
    '(' ∈ trim (stripComment first)
  unclosed : ∀ line ∈ text, ')' ∉ trim (stripComment line)

/-- The lines are one statement: a line that leaves no list open, or all lines of a list. -/
inductive IsStatement : List (List Char) → Prop
  | single {line : List Char} (h : ¬ OpenList [line]) : IsStatement [line]
  | list {text : List (List Char)} {last : List Char} (h : OpenList text)
      (hlast : ')' ∈ trim (stripComment last)) : IsStatement (text ++ [last])

/-- What is left of the lines, on one line. -/
def joinedLines (text : List (List Char)) : List Char :=
  onOneLine (text.map fun line => trim (stripComment line))

/-- The import is one of a statement, of which its line is the first. There the scanner is outside
of blocks and of other statements. -/
def StandsIn (text : List (List Char)) (i : Import) : Prop :=
  ∃ past statement rest, text = past ++ statement ++ rest ∧ i.line = past.length + 1 ∧
    (PythonScan.readLines {} 1 past).mode = .code ∧ IsStatement statement ∧
      i ∈ statementImports i.line (joinedLines statement)

/-- After these lines every import that was found is in its place, and so is an open statement. -/
structure Placed (text : List (List Char)) : Prop where
  imports : ∀ i ∈ (PythonScan.readLines {} 1 text).result.imports, StandsIn text i
  statement : ∀ opened line, (PythonScan.readLines {} 1 text).mode = .statement opened line →
    ∃ past front, text = past ++ front ∧ line = past.length + 1 ∧
      (PythonScan.readLines {} 1 past).mode = .code ∧ OpenList front ∧ opened = joinedLines front

theorem StandsIn.concat {text : List (List Char)} {i : Import} (h : StandsIn text i)
    (line : List Char) : StandsIn (text ++ [line]) i := by
  obtain ⟨past, statement, rest, rfl, hrest⟩ := h
  exact ⟨past, statement, rest ++ [line], List.append_assoc _ _ _, hrest⟩

theorem joinedLines_singleton (line : List Char) :
    joinedLines [line] = trim (stripComment line) :=
  List.append_nil _

theorem joinedLines_concat {text : List (List Char)} (h : text ≠ []) (line : List Char) :
    joinedLines (text ++ [line]) = joinedLines text ++ ' ' :: trim (stripComment line) := by
  obtain ⟨first, rest, rfl⟩ := List.exists_cons_of_ne_nil h
  simp [joinedLines, onOneLine]

section

variable {text : List (List Char)} {line : List Char}

theorem OpenList.ne_nil (h : OpenList text) : text ≠ [] := by
  obtain ⟨first, rest, rfl, -⟩ := h.starts
  exact List.cons_ne_nil first rest

theorem OpenList.concat (h : OpenList text) (hline : ')' ∉ trim (stripComment line)) :
    OpenList (text ++ [line]) where
  starts := by
    obtain ⟨first, rest, rfl, hfirst⟩ := h.starts
    exact ⟨first, rest ++ [line], rfl, hfirst⟩
  unclosed := List.forall_mem_append.mpr ⟨h.unclosed, List.forall_mem_singleton.mpr hline⟩

/-- What is left of an open list begins with the keyword and has the parenthesis. -/
theorem OpenList.joinedLines (h : OpenList text) :
    "from ".toList <+: joinedLines text ∧ '(' ∈ joinedLines text := by
  obtain ⟨first, rest, rfl, hfrom, hparen⟩ := h.starts
  exact ⟨hfrom.trans (List.prefix_append _ _), List.mem_append_left _ hparen⟩

theorem openList_singleton_iff :
    OpenList [line] ↔ ("from ".toList.isPrefixOf (trim (stripComment line)) &&
      (trim (stripComment line)).contains '(' &&
        !(trim (stripComment line)).contains ')') = true := by
  rw [Bool.and_eq_true, Bool.and_eq_true, Bool.not_eq_true', ← Bool.not_eq_true,
    List.isPrefixOf_iff_prefix, List.contains_iff_mem, List.contains_iff_mem]
  constructor
  · rintro ⟨⟨_, _, heq, hfirst⟩, hopen⟩
    obtain ⟨rfl, -⟩ := List.cons.inj heq
    exact ⟨hfirst, hopen line (List.mem_singleton_self line)⟩
  · rintro ⟨hfirst, hopen⟩
    exact ⟨⟨line, [], rfl, hfirst⟩, List.forall_mem_singleton.mpr hopen⟩

end

theorem placed_nil : Placed [] :=
  ⟨List.forall_mem_nil _, nofun⟩

namespace PythonScan

theorem addDefinition_keeps (s : PythonScan) (name : List Char) :
    (s.addDefinition name).mode = s.mode ∧
      (s.addDefinition name).result.imports = s.result.imports := by
  unfold addDefinition
  split <;> exact ⟨rfl, rfl⟩

section

variable {text : List (List Char)} {line : List Char} (h : Placed text) {s : PythonScan}
  (hs : readLines {} 1 (text ++ [line]) = s)

include h hs

/-- A line that leaves no statement open and finds nothing. -/
theorem placed_of_imports_eq (himports : s.result.imports = (readLines {} 1 text).result.imports)
    (hmode : ∀ opened start, s.mode ≠ .statement opened start) : Placed (text ++ [line]) where
  imports := by
    rw [hs, himports]
    exact fun i hi => (h.imports i hi).concat line
  statement opened start hopened := absurd (hs ▸ hopened) (hmode opened start)

/-- A line that leaves a statement open. -/
theorem placed_of_openList (himports : s.result.imports = (readLines {} 1 text).result.imports)
    {past front : List (List Char)} (hlines : text ++ [line] = past ++ front)
    (hcode : (readLines {} 1 past).mode = .code) (hfront : OpenList front)
    (hmode : s.mode = .statement (joinedLines front) (past.length + 1)) :
    Placed (text ++ [line]) where
  imports := by
    rw [hs, himports]
    exact fun i hi => (h.imports i hi).concat line
  statement opened start hopened := by
    rw [hs, hmode] at hopened
    obtain ⟨rfl, rfl⟩ := Mode.statement.inj hopened
    exact ⟨past, front, hlines, rfl, hcode, hfront, rfl⟩

/-- The last line of a statement. -/
theorem placed_of_isStatement {past statement : List (List Char)}
    (hlines : text ++ [line] = past ++ statement) (hcode : (readLines {} 1 past).mode = .code)
    (hstatement : IsStatement statement)
    (hadd : s = (readLines {} 1 text).addStatement (past.length + 1) (joinedLines statement)) :
    Placed (text ++ [line]) where
  imports := by
    rw [hs, hadd, imports_addStatement]
    intro i hi
    rcases List.mem_append.mp hi with hold | hnew
    · exact (h.imports i hold).concat line
    · obtain ⟨path, -, rfl⟩ := exists_of_mem_statementImports hnew
      refine ⟨past, statement, [], ?_, rfl, hcode, hstatement, hnew⟩
      rw [List.append_nil, hlines]
  statement opened start hopened := by
    rw [hs, hadd] at hopened
    exact nomatch hopened

end

/-- One line more. -/
theorem placed_concat {text : List (List Char)} (h : Placed text) (line : List Char) :
    Placed (text ++ [line]) := by
  have hread : readLines {} 1 (text ++ [line]) =
      (readLines {} 1 text).readLine (text.length + 1) line := by
    rw [readLines_concat, Nat.add_comm]
  cases hmode : (readLines {} 1 text).mode with
  | block d =>
    obtain ⟨himports, -⟩ := imports_readLine_of_block hmode (text.length + 1) line
    refine placed_of_imports_eq h hread (congrArg Array.toList himports) ?_
    unfold readLine
    rw [hmode]
    dsimp only
    split
    · exact nofun
    · rw [hmode]
      exact nofun
  | code =>
    replace hread := hread.trans (readLine_of_code hmode _ _)
    unfold readCode at hread
    dsimp only at hread
    split at hread
    · exact placed_of_imports_eq h hread rfl nofun
    split at hread
    · next name _ =>
      obtain ⟨hkept, himports⟩ := (readLines {} 1 text).addDefinition_keeps name
      refine placed_of_imports_eq h hread himports ?_
      rw [hkept, hmode]
      exact nofun
    split at hread
    · next hopen =>
      exact placed_of_openList h hread rfl rfl hmode (openList_singleton_iff.mpr hopen)
        (by rw [joinedLines_singleton])
    · next hopen =>
      exact placed_of_isStatement h hread rfl hmode
        (.single (mt openList_singleton_iff.mp hopen)) (by rw [joinedLines_singleton])
  | statement opened start =>
    obtain ⟨past, front, rfl, rfl, hcode, hfront, rfl⟩ := h.statement opened start hmode
    have hlines := List.append_assoc past front [line]
    have hjoined := joinedLines_concat hfront.ne_nil line
    unfold readLine at hread
    rw [hmode] at hread
    dsimp only at hread
    rw [← hjoined] at hread
    split at hread
    · next hclose =>
      exact placed_of_isStatement h hread hlines hcode
        (.list hfront (List.contains_iff_mem.mp hclose)) rfl
    · next hclose =>
      exact placed_of_openList h hread rfl hlines hcode
        (hfront.concat (mt List.contains_iff_mem.mpr hclose)) rfl

/-- Any number of lines. -/
theorem placed_readLines (text : List (List Char)) : Placed text := by
  induction text using List.reverseRecOn with
  | nil => exact placed_nil
  | append_singleton text line ih => exact placed_concat ih line

end PythonScan

/-! ## A scan that has read a line more -/

/-- The number of a line, after a line was put in behind so many. -/
def movedLine (n line : Nat) : Nat :=
  if n < line then line + 1 else line

/-- The import on its line, after a line was put in behind so many. -/
def moved (n : Nat) (i : Import) : Import :=
  { i with line := movedLine n i.line }

theorem movedLine_of_lt {n line : Nat} (h : n < line) : movedLine n line = line + 1 :=
  if_pos h

theorem movedLine_of_le {n line : Nat} (h : line ≤ n) : movedLine n line = line :=
  if_neg (Nat.not_lt.mpr h)

/-- An open statement and the same with one blank more behind its parenthesis. More text may come
behind both, with a blank before it. -/
def Wider (text text' : List Char) : Prop :=
  ∃ first last, "from ".toList <+: first ∧ '(' ∈ first ∧ text ++ [' '] = first ++ ' ' :: last ∧
    text' ++ [' '] = first ++ ' ' :: ' ' :: last

/-- The modes of two scans, of which the second has read a line more behind so many lines. -/
inductive SameMode (n : Nat) : Mode → Mode → Prop
  | code : SameMode n .code .code
  | block (d : Delimiter) : SameMode n (.block d) (.block d)
  | below (text : List Char) {start : Nat} (hstart : n < start) :
      SameMode n (.statement text start) (.statement text (start + 1))
  | around {text text' : List Char} {start : Nat} (htext : Wider text text') (hstart : start ≤ n) :
      SameMode n (.statement text start) (.statement text' start)

/-- What two scans have found, of which the second has read a line more behind so many lines. -/
structure Shifted (n : Nat) (s s' : PythonScan) : Prop where
  mode : SameMode n s.mode s'.mode
  imports : s'.result.imports = s.result.imports.map (moved n)
  exports : s'.exports = s.exports

theorem Wider.append {text text' : List Char} (h : Wider text text') (row : List Char) :
    Wider (text ++ ' ' :: row) (text' ++ ' ' :: row) := by
  obtain ⟨first, last, hfrom, hparen, htext, htext'⟩ := h
  have hrow : ∀ t : List Char, t ++ ' ' :: row ++ [' '] = t ++ [' '] ++ (row ++ [' ']) := by
    intro t
    rw [List.append_assoc, List.append_assoc]
    rfl
  refine ⟨first, last ++ (row ++ [' ']), hfrom, hparen, ?_, ?_⟩
  · rw [hrow, htext, List.append_assoc, List.cons_append]
  · rw [hrow, htext', List.append_assoc, List.cons_append, List.cons_append]

/-- The last row of a list closes it, and the same is imported. -/
theorem Wider.statementImports_eq {text text' : List Char} (h : Wider text text') (line : Nat)
    (row : List Char) : statementImports line (text' ++ ' ' :: row) =
      statementImports line (text ++ ' ' :: row) := by
  obtain ⟨first, last, hfrom, hparen, htext, htext'⟩ := h
  rw [List.append_cons, htext', List.append_cons text, htext, List.append_assoc, List.append_assoc]
  exact (statementImports_gap hfrom hparen line (last ++ row)).symm

/-- The same statement on its moved line. -/
theorem statementImports_movedLine (n line : Nat) (text : List Char) :
    statementImports (movedLine n line) text = (statementImports line text).map (moved n) := by
  have hat : ∀ paths : List (List Char), paths.map (importAt (movedLine n line)) =
      (paths.map (importAt line)).map (moved n) := by
    intro paths
    rw [List.map_map]
    rfl
  unfold statementImports
  split
  · exact hat _
  split
  · rfl
  split
  · rfl
  unfold fromImports
  dsimp only
  split
  · rw [List.map_map]
    rfl
  split <;> rfl

namespace PythonScan

section

variable {n : Nat} {s s' : PythonScan} (h : Shifted n s s')

include h

theorem shifted_enter {mode mode' : Mode} (hmode : SameMode n mode mode') :
    Shifted n { s with mode } { s' with mode := mode' } :=
  ⟨hmode, h.imports, h.exports⟩

theorem shifted_addStatement {line line' : Nat} {text text' : List Char}
    (hline : line' = movedLine n line)
    (htext : statementImports line' text' = statementImports line' text) :
    Shifted n (s.addStatement line text) (s'.addStatement line' text') := by
  refine ⟨.code, ?_, h.exports⟩
  rw [imports_addStatement, imports_addStatement, h.imports, htext, hline,
    statementImports_movedLine, List.map_append]

theorem shifted_addDefinition (name : List Char) :
    Shifted n (s.addDefinition name) (s'.addDefinition name) := by
  unfold addDefinition
  split
  · exact h
  · exact ⟨h.mode, h.imports, congrArg (·.push (String.ofList name)) h.exports⟩

theorem shifted_readCode {number : Nat} (hnumber : n < number) (line : List Char) :
    Shifted n (s.readCode number line) (s'.readCode (number + 1) line) := by
  unfold readCode
  dsimp only
  cases opensBlock (trim (stripComment line)) with
  | some d => exact shifted_enter h (.block d)
  | none =>
    dsimp only
    split
    · exact shifted_addDefinition h _
    split
    · exact shifted_enter h (.below _ hnumber)
    · exact shifted_addStatement h (movedLine_of_lt hnumber).symm rfl

/-- One line, which has another number in the second scan. -/
theorem shifted_readLine {number : Nat} (hnumber : n < number) (line : List Char) :
    Shifted n (s.readLine number line) (s'.readLine (number + 1) line) := by
  have hmode := h.mode
  unfold readLine
  generalize s.mode = mode at hmode
  generalize s'.mode = mode' at hmode
  cases hmode with
  | code => exact shifted_readCode h hnumber line
  | block d =>
    dsimp only
    split
    · exact shifted_enter h .code
    · exact h
  | below text hstart =>
    dsimp only
    split
    · exact shifted_addStatement h (movedLine_of_lt hstart).symm rfl
    · exact shifted_enter h (.below _ hstart)
  | around htext hstart =>
    dsimp only
    split
    · exact shifted_addStatement h (movedLine_of_le hstart).symm (htext.statementImports_eq _ _)
    · exact shifted_enter h (.around (htext.append _) hstart)

end

/-- Any number of lines. -/
theorem shifted_readLines (text : List (List Char)) : ∀ {n number : Nat} {s s' : PythonScan},
    Shifted n s s' → n < number →
      Shifted n (s.readLines number text) (s'.readLines (number + 1) text) := by
  induction text with
  | nil => exact fun h _ => h
  | cons line text ih =>
    intro n number s s' h hnumber
    rw [readLines_cons, readLines_cons]
    exact ih (shifted_readLine h hnumber line) (Nat.lt_succ_of_lt hnumber)

/-- A line on which nothing is left: a comment or, in a block, a line without its delimiter. -/
theorem shifted_readLine_of_shows_nil {text : List (List Char)} {line : List Char}
    (hline : Shows line []) (hblock : ∀ d, (readLines {} 1 text).mode = .block d →
      occursIn d.text line = false) :
    Shifted text.length (readLines {} 1 text)
      ((readLines {} 1 text).readLine (text.length + 1) line) := by
  have hplaced := placed_readLines text
  have hsound := sound_readLines text sound_init
  rw [Nat.zero_add, Nat.zero_add] at hsound
  -- what was found stands on the lines above
  have himports : (readLines {} 1 text).result.imports =
      (readLines {} 1 text).result.imports.map (moved text.length) := by
    have hmoved : ∀ i ∈ (readLines {} 1 text).result.imports, moved text.length i = id i := by
      intro i hi
      rw [moved, movedLine_of_le (hsound.wellFormed.imports i hi).line_le, id_eq]
    rw [List.map_congr_left hmoved, List.map_id]
  unfold readLine
  cases hmode : (readLines {} 1 text).mode with
  | code =>
    dsimp only
    rw [readCode_of_shows_nil _ _ hline]
    exact ⟨by rw [hmode]; exact .code, himports, rfl⟩
  | block d =>
    dsimp only
    rw [hblock d hmode, if_neg Bool.false_ne_true]
    exact ⟨by rw [hmode]; exact .block d, himports, rfl⟩
  | statement opened start =>
    obtain ⟨past, front, -, -, -, hfront, rfl⟩ := hplaced.statement opened start hmode
    obtain ⟨hfrom, hparen⟩ := hfront.joinedLines
    have hstart := (hsound.statement _ start hmode).2.1
    dsimp only
    rw [show trim (stripComment line) = [] from hline, if_neg (by decide)]
    refine ⟨?_, himports, rfl⟩
    rw [hmode]
    refine .around ⟨_, [], hfrom, hparen, rfl, ?_⟩ hstart
    rw [List.append_assoc]
    rfl

end PythonScan

/-! ## Empty lines and comments -/

/-- A line without a comment has no delimiter. -/
theorem Margin.occursIn_around_nil {m : Margin} (hm : m.comment? = none) (d : Delimiter) :
    occursIn d.text (m.around []) = false := by
  have hline : m.around [] = m.lead ++ m.gap := by
    rw [around, tail, hm, List.append_nil, List.append_nil]
  rw [Bool.eq_false_iff, Ne, occursIn_iff, hline]
  refine delimiter_not_mem_pieces (fun c hc => isQuote_eq_false_of_isBlank ?_) d
  rcases List.mem_append.mp hc with hlead | hgap
  · exact (isBlank_of_all_isMarginChar m.lead_blank c hlead).1
  · exact (isBlank_of_all_isMarginChar m.gap_blank c hgap).1

/-- Let a line be put into a source that has nothing on it but blanks, and a comment if no block is
open there. Then the same is imported and exported. Exactly the imports behind that line move, by
one line, and before and after that every import stands in the statement that starts on its line. -/
theorem scan_insertLine (source : List Char) {n : Nat} (hn : n ≤ (lines source).length)
    (m : Margin) (hm : m.comment? = none ∨ ∀ d, (PythonScan.before source n).mode ≠ .block d) :
    (scan (insertLine (m.around []) n source)).imports = (scan source).imports.map (moved n) ∧
      (scan (insertLine (m.around []) n source)).exports = (scan source).exports ∧
        ∀ i ∈ (scan source).imports, StandsIn (lines source) i ∧
          StandsIn (lines (insertLine (m.around []) n source)) (moved n i) := by
  have hstands : ∀ source : List Char, ∀ i ∈ (scan source).imports, StandsIn (lines source) i :=
    fun source => (PythonScan.placed_readLines (lines source)).imports
  have hlength : ((lines source).take n).length = n := List.length_take_of_le hn
  have hidle : Shifted n (PythonScan.before source n)
      ((PythonScan.before source n).readLine (n + 1) (m.around [])) := by
    have hblock : ∀ d, (PythonScan.before source n).mode = .block d →
        occursIn d.text (m.around []) = false := fun d hd =>
      m.occursIn_around_nil (hm.resolve_right fun hcode => hcode d hd) d
    have hshifted := PythonScan.shifted_readLine_of_shows_nil (m.shows_around .nil) hblock
    rwa [hlength] at hshifted
  have hall := PythonScan.shifted_readLines ((lines source).drop n) hidle (Nat.lt_succ_self n)
  have hscan : scan source =
      ((PythonScan.before source n).readLines (n + 1) ((lines source).drop n)).result := by
    have hsplit := PythonScan.readLines_append {} 1 ((lines source).take n) ((lines source).drop n)
    rw [List.take_append_drop, hlength, Nat.add_comm] at hsplit
    exact congrArg PythonScan.result hsplit
  have hscan' : scan (insertLine (m.around []) n source) =
      (((PythonScan.before source n).readLine (n + 1) (m.around [])).readLines (n + 1 + 1)
        ((lines source).drop n)).result := by
    have hsplit := PythonScan.readLines_insertLine (m.newline_not_mem_around .nil) hn {} 1
    rw [PythonScan.readLines_append, hlength, Nat.add_comm] at hsplit
    exact congrArg PythonScan.result hsplit
  have himports : (scan (insertLine (m.around []) n source)).imports =
      (scan source).imports.map (moved n) := by
    rw [hscan, hscan']
    exact hall.imports
  refine ⟨himports, ?_, fun i hi => ⟨hstands source i hi, hstands _ _ ?_⟩⟩
  · rw [hscan, hscan']
    exact congrArg Array.toList hall.exports
  · rw [himports]
    exact List.mem_map_of_mem hi

/-- A source with a list on two lines. -/
def listing : List Char :=
  "import os\nfrom . import (a,\n  b as c)\nimport re\n".toList

/-- The comment is put between the lines of the list, which stays where it is and stays open. -/
theorem scan_insertLine_listing :
    insertLine ((sampleMargin 2).around []) 2 listing =
        "import os\nfrom . import (a,\n\t # why)\n  b as c)\nimport re\n".toList ∧
      (scan listing).imports =
        [⟨"os", .static, 1⟩, ⟨".a", .static, 2⟩, ⟨".b", .static, 2⟩, ⟨"re", .static, 4⟩] ∧
      (scan (insertLine ((sampleMargin 2).around []) 2 listing)).imports =
        [⟨"os", .static, 1⟩, ⟨".a", .static, 2⟩, ⟨".b", .static, 2⟩, ⟨"re", .static, 5⟩] := by
  have hlist : ∀ d, (PythonScan.before listing 2).mode ≠ .block d := by
    intro d
    cases d <;> decide
  obtain ⟨himports, -, -⟩ := scan_insertLine listing (by decide) (sampleMargin 2) (.inr hlist)
  refine ⟨by decide, by decide, ?_⟩
  rw [himports]
  decide

end DepGraph.Python

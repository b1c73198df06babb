import DepGraph.Proofs.Source.PythonStatements
import Mathlib.Data.List.Forall2

/-!
# Pages of import statements

A page of import statements and what the scanner finds on it. On the page every row of a statement
is a line and has a margin: blanks around it, and a comment behind it.

- `Margin.shows_around`: a row is what is left of its line.
- `lines_pageText`: the lines of a page show its rows, one each.
- `PythonScan.readLines_statement`: the lines of one statement, read one after the other.
- `PythonScan.readLines_statements`: the lines of any number of them.
- `scan_eq_found`: what the scanner finds on any page.
- `scan_page_iff`: when that is every import, on the line on which its statement starts.
- `page_loses_as`: a module of the name `as` may be lost.
-/

namespace DepGraph.Python

open DepGraph.Text

/-! ## Margins -/

/-- Can the character stand around a row? It is a blank that does not end the line. -/
def isMarginChar (c : Char) : Bool :=
  isBlank c && c != '\n'

/-- What stands around a row: blanks, and a comment behind it. -/
structure Margin where
  lead : List Char := []
  gap : List Char := []
  comment? : Option (List Char) := none
  lead_blank : lead.all isMarginChar = true := by decide
  gap_blank : gap.all isMarginChar = true := by decide
  comment_newline : ∀ t ∈ comment?, '\n' ∉ t := by decide

theorem isBlank_of_all_isMarginChar {blanks : List Char} (h : blanks.all isMarginChar = true) :
    ∀ c ∈ blanks, isBlank c = true ∧ c ≠ '\n' := by
  intro c hc
  have hchar := List.all_eq_true.mp h c hc
  rw [isMarginChar, Bool.and_eq_true, bne_iff_ne] at hchar
  exact hchar

/-- The line shows the row. -/
def Shows (line row : List Char) : Prop :=
  trim (stripComment line) = row

namespace Margin

/-- The comment, if there is one. -/
def tail (m : Margin) : List Char :=
  match m.comment? with
  | some t => '#' :: t
  | none => []

/-- The line of a row. -/
def around (m : Margin) (row : List Char) : List Char :=
  m.lead ++ row ++ m.gap ++ m.tail

theorem shows_around (m : Margin) {row : List Char} (h : IsRow isStatementChar row) :
    Shows (m.around row) row := by
  have hlead := isBlank_of_all_isMarginChar m.lead_blank
  have hgap := isBlank_of_all_isMarginChar m.gap_blank
  have hblank : ∀ c, isBlank c = true → (c != '#') = true := by
    intro c hc
    rw [bne_iff_ne]
    rintro rfl
    exact absurd hc (by decide)
  have hkept : ∀ c ∈ m.lead ++ row ++ m.gap, (c != '#') = true := by
    intro c hc
    rcases List.mem_append.mp hc with hfront | hback
    · rcases List.mem_append.mp hfront with hin | hrow
      · exact hblank c (hlead c hin).1
      · rw [bne_iff_ne]
        rintro rfl
        exact h.not_mem (by decide) hrow
    · exact hblank c (hgap c hback).1
  -- so the first hash is that of the comment
  have hcut : m.tail.takeWhile (· != '#') = [] := by
    unfold tail
    cases m.comment? <;> rfl
  have hstrip : stripComment (m.around row) = m.lead ++ row ++ m.gap := by
    unfold stripComment around
    rw [List.takeWhile_append_of_pos hkept, hcut, List.append_nil]
  unfold Shows
  rw [hstrip, trim_surround (fun c hc => (hlead c hc).1) (fun c hc => (hgap c hc).1), h.trim_eq]

theorem newline_not_mem_around (m : Margin) {row : List Char} (h : IsRow isStatementChar row) :
    '\n' ∉ m.around row := by
  have htail : '\n' ∉ m.tail := by
    unfold tail
    cases hcomment : m.comment? with
    | none => exact List.not_mem_nil
    | some t =>
      exact List.not_mem_cons_of_ne_of_not_mem (by decide) (m.comment_newline t hcomment)
  intro hmem
  rcases List.mem_append.mp hmem with hfront | hback
  · rcases List.mem_append.mp hfront with hfront | hgap
    · rcases List.mem_append.mp hfront with hlead | hrow
      · exact (isBlank_of_all_isMarginChar m.lead_blank _ hlead).2 rfl
      · exact h.not_mem (by decide) hrow
    · exact (isBlank_of_all_isMarginChar m.gap_blank _ hgap).2 rfl
  · exact htail hback

theorem around_ne_nil (m : Margin) {row : List Char} (h : row ≠ []) : m.around row ≠ [] := by
  unfold around
  simp [h]

end Margin

/-- A carriage return at the end of a line does not show. -/
theorem Shows.withoutReturn {line row : List Char} (h : Shows line row) :
    Shows (withoutReturn line) row := by
  rcases eq_withoutReturn_or line with heq | heq
  · rwa [← heq]
  · rw [heq, Shows, stripComment, List.takeWhile_append] at h
    split at h
    · next hall =>
      -- without a comment the return is a blank, and otherwise the comment takes it along
      have hwhole : stripComment (Text.withoutReturn line) = Text.withoutReturn line :=
        (List.takeWhile_prefix _).eq_of_length hall
      have hreturn : ∀ c ∈ ['\r'].takeWhile (· != '#'), isBlank c = true :=
        List.all_eq_true.mp (by decide)
      have htrim := trim_surround (List.forall_mem_nil _) hreturn (Text.withoutReturn line)
      rw [List.nil_append] at htrim
      rw [Shows, hwhole, ← htrim]
      exact h
    · exact h

/-! ## Pages -/

/-- The lines of rows, of which the first has the given number. -/
def pageLines (margin : Nat → Margin) : Nat → List (List Char) → List (List Char)
  | _, [] => []
  | number, row :: rows => (margin number).around row :: pageLines margin (number + 1) rows

/-- The text of lines, with a line feed after the last one or without. -/
def pageText (closed : Bool) : List (List Char) → List Char
  | [] => []
  | [line] => if closed then line ++ ['\n'] else line
  | line :: next :: rest => line ++ '\n' :: pageText closed (next :: rest)

/-- The lines of a page show its rows. The last row has to be there, since a page that ends without
a line feed may not end with an empty line. -/
theorem lines_pageText (closed : Bool) (margin : Nat → Margin) {rows : List (List Char)}
    (hrows : ∀ row ∈ rows, IsRow isStatementChar row) (hlast : rows.getLast? ≠ some []) :
    ∀ number, List.Forall₂ Shows (lines (pageText closed (pageLines margin number rows))) rows := by
  induction rows with
  | nil => exact fun _ => .nil
  | cons row rows ih =>
    intro number
    have hrow := hrows row (List.mem_cons_self ..)
    have hnewline := (margin number).newline_not_mem_around hrow
    have hshows := (margin number).shows_around hrow
    cases rows with
    | nil =>
      -- without a line feed an empty line would not count
      have hne : row ≠ [] := fun h => hlast (congrArg some h)
      cases closed with
      | true =>
        show List.Forall₂ Shows (lines ((margin number).around row ++ '\n' :: [])) [row]
        rw [lines_append_newline hnewline]
        exact .cons hshows.withoutReturn .nil
      | false =>
        show List.Forall₂ Shows (lines ((margin number).around row)) [row]
        have hempty : ((margin number).around row).isEmpty = false :=
          List.isEmpty_eq_false_iff.mpr ((margin number).around_ne_nil hne)
        rw [lines_of_not_mem hnewline, hempty, if_neg Bool.false_ne_true]
        exact .cons hshows .nil
    | cons next rest =>
      have htail := ih (fun row' hrow' => hrows row' (List.mem_cons_of_mem row hrow'))
        (by rwa [List.getLast?_cons_cons] at hlast) (number + 1)
      show List.Forall₂ Shows (lines ((margin number).around row ++
        '\n' :: pageText closed (pageLines margin (number + 1) (next :: rest)))) _
      rw [lines_append_newline hnewline]
      exact .cons hshows.withoutReturn htail

/-- A page of statements. -/
def page (closed : Bool) (margin : Nat → Margin) (statements : List Statement) : List Char :=
  pageText closed (pageLines margin 1 (statements.flatMap Statement.rows))

/-- The imports of statements, of which the first starts on the given line and each has the given
specifiers. -/
def importsFrom (specifiers : Statement → List (List Char)) : Nat → List Statement → List Import
  | _, [] => []
  | line, s :: rest =>
    (specifiers s).map (importAt line) ++ importsFrom specifiers (line + s.rows.length) rest

theorem importAt_injective (line : Nat) {specifier other : List Char}
    (h : importAt line specifier = importAt line other) : specifier = other :=
  String.ofList_injective (Import.mk.inj h).1

theorem append_eq_append_iff_of_sublist {α : Type} {front front' rest rest' : List α}
    (hfront : front.Sublist front') (hrest : rest.Sublist rest') :
    front ++ rest = front' ++ rest' ↔ front = front' ∧ rest = rest' := by
  constructor
  · intro h
    have hlength := congrArg List.length h
    rw [List.length_append, List.length_append] at hlength
    have hshort := hfront.length_le
    have hshort' := hrest.length_le
    exact ⟨hfront.eq_of_length (by omega), hrest.eq_of_length (by omega)⟩
  · rintro ⟨rfl, rfl⟩
    rfl

theorem importsFrom_found_sublist (statements : List Statement) : ∀ line,
    (importsFrom Statement.found line statements).Sublist
      (importsFrom Statement.specifiers line statements) := by
  induction statements with
  | nil => exact fun _ => List.Sublist.refl _
  | cons s rest ih => exact fun line => (s.found_sublist_specifiers.map _).append (ih _)

/-- Nothing is missing exactly if in no statement anything is. -/
theorem importsFrom_found_eq_iff (statements : List Statement) : ∀ line,
    importsFrom Statement.found line statements = importsFrom Statement.specifiers line statements ↔
      ∀ s ∈ statements, s.Clear := by
  induction statements with
  | nil => exact fun _ => iff_of_true rfl (List.forall_mem_nil _)
  | cons s rest ih =>
    intro line
    have hfirst : s.found.map (importAt line) = s.specifiers.map (importAt line) ↔ s.Clear :=
      (List.map_inj_right fun _ _ => importAt_injective line).trans s.found_eq_specifiers_iff
    rw [importsFrom, importsFrom, append_eq_append_iff_of_sublist
      (s.found_sublist_specifiers.map _) (importsFrom_found_sublist rest _), hfirst, ih,
      List.forall_mem_cons]

/-! ## The scanner on a statement -/

/-- No import statement starts like a definition. -/
theorem definitionName_eq_none {row : List Char}
    (h : row.head? = some 'i' ∨ row.head? = some 'f') : definitionName row = none := by
  cases row with
  | nil => rcases h with h | h <;> exact nomatch h
  | cons c row =>
    rcases h with h | h
    · obtain rfl := Option.some.inj h
      rfl
    · obtain rfl := Option.some.inj h
      rfl

namespace PythonScan

theorem readLines_append (s : PythonScan) (number : Nat) (first rest : List (List Char)) :
    s.readLines number (first ++ rest) =
      (s.readLines number first).readLines (number + first.length) rest := by
  unfold readLines
  rw [List.zipIdx_append, List.foldl_append, Nat.add_comm]

theorem readCode_of_shows (s : PythonScan) (number : Nat) {line row : List Char}
    (hshows : Shows line row) (hrow : IsRow isStatementChar row)
    (hstart : row.head? = some 'i' ∨ row.head? = some 'f') : s.readCode number line =
      if "from ".toList.isPrefixOf row && row.contains '(' && !row.contains ')' then
        { s with mode := .statement row number }
      else s.addStatement number row := by
  unfold readCode
  dsimp only
  rw [show trim (stripComment line) = row from hshows, opensBlock_eq_none hrow.not_isQuote,
    definitionName_eq_none hstart]
  dsimp only
  rw [ite_self]

theorem readLine_of_code {s : PythonScan} (hs : s.mode = .code) (number : Nat) (line : List Char) :
    s.readLine number line = s.readCode number line := by
  unfold readLine
  rw [hs]

/-- Inside a statement the rows are put on one line up to the closing parenthesis. -/
theorem readLines_enclosed {rest : List (List Char)} : ∀ {row : List Char}
    {text : List (List Char)} {s : PythonScan} {before : List Char} {start : Nat} (number : Nat),
    s.mode = .statement before start → (∀ r ∈ row :: rest, ')' ∉ r) →
      List.Forall₂ Shows text (enclosedRows row rest) →
        s.readLines number text =
          s.addStatement start (before ++ (enclosedRows row rest).flatMap (' ' :: ·)) := by
  -- by induction on the rows, while `before` grows by every row that is read
  induction rest with
  | nil =>
    intro row text s before start number hs _ htext
    obtain ⟨line, tail, hline, htail, rfl⟩ := List.forall₂_cons_right_iff.mp htext
    obtain rfl := List.forall₂_nil_right_iff.mp htail
    have hclosed : (row ++ [')']).contains ')' = true := by simp
    show s.readLine number line = _
    unfold readLine
    rw [hs]
    dsimp only
    rw [show trim (stripComment line) = row ++ [')'] from hline, hclosed, if_pos rfl]
    simp [enclosedRows]
  | cons next rest ih =>
    intro row text s before start number hs hopen htext
    obtain ⟨line, tail, hline, htail, rfl⟩ := List.forall₂_cons_right_iff.mp htext
    have hrow : row.contains ')' = false := by
      simpa using hopen row (List.mem_cons_self ..)
    have hread : s.readLine number line =
        { s with mode := .statement (before ++ ' ' :: row) start } := by
      unfold readLine
      rw [hs]
      dsimp only
      rw [show trim (stripComment line) = row from hline, hrow, if_neg Bool.false_ne_true]
    have hrest := fun r hr => hopen r (List.mem_cons_of_mem row hr)
    rw [readLines_cons, hread, ih (number + 1) rfl hrest htail]
    show s.addStatement start _ = _
    rw [enclosedRows, List.flatMap_cons, List.append_assoc]

/-- A statement of one row, as it is unless it opens a parenthesis and leaves it open. -/
theorem readLines_single {s : PythonScan} (hs : s.mode = .code) (number : Nat) {row : List Char}
    {text : List (List Char)} (htext : List.Forall₂ Shows text [row])
    (hrow : IsRow isStatementChar row) (hstart : row.head? = some 'i' ∨ row.head? = some 'f')
    (hopen : ("from ".toList.isPrefixOf row && row.contains '(' && !row.contains ')') = false) :
    s.readLines number text = s.addStatement number row := by
  obtain ⟨line, tail, hline, htail, rfl⟩ := List.forall₂_cons_right_iff.mp htext
  obtain rfl := List.forall₂_nil_right_iff.mp htail
  show s.readLine number line = _
  rw [readLine_of_code hs, s.readCode_of_shows number hline hrow hstart, hopen,
    if_neg Bool.false_ne_true]

/-- The lines of a statement give the imports of the statement. -/
theorem readLines_statement {s : PythonScan} (hs : s.mode = .code) (number : Nat)
    (statement : Statement) {text : List (List Char)}
    (htext : List.Forall₂ Shows text statement.rows) :
    s.readLines number text = s.addStatement number (onOneLine statement.rows) := by
  have hrows := statement.isRow_of_mem_rows
  cases statement with
  | modules first rest =>
    have hrow := hrows _ (List.mem_cons_self ..)
    have hread := readLines_single hs number htext hrow (.inl rfl) rfl
    show _ = s.addStatement number (_ ++ [])
    rw [hread, List.append_nil]
  | names origin list =>
    cases list with
    | bare first rest =>
      have hrow := hrows _ (List.mem_cons_self ..)
      have hparen : isListChar '(' = false := by decide
      -- a list without parentheses opens none
      have hjoined := (isRow_joined isNaming_isIdentifier rest first).not_mem hparen
      have hopen : (origin.start ++ joined first rest).contains '(' = false := by
        simpa using ⟨origin.not_mem_start hparen, hjoined⟩
      have hread := readLines_single hs number htext hrow (.inr rfl) (by
        rw [hopen, Bool.and_false, Bool.false_and])
      show _ = s.addStatement number (_ ++ [])
      rw [hread, List.append_nil]
    | enclosed first rest comma hsome =>
      cases rest with
      | nil =>
        have hrow := hrows _ (List.mem_cons_self ..)
        have hread := readLines_single hs number htext hrow (.inr rfl) (by simp)
        show _ = s.addStatement number (_ ++ [])
        rw [hread, List.append_nil]
      | cons next rest =>
        -- the first row opens the parenthesis, and the others are put on one line with it
        obtain ⟨line, tail, hline, htail, rfl⟩ := List.forall₂_cons_right_iff.mp htext
        have hrow := hrows _ (List.mem_cons_self ..)
        have hclose : isListChar ')' = false := by decide
        have hfirst := (isRow_rowText isNaming_isIdentifier
          (comma || (next :: rest).any (!·.isEmpty)) first).not_mem hclose
        have hothers : ∀ r ∈ rowTexts comma (next :: rest), ')' ∉ r := fun r hr =>
          (isRow_rowTexts isNaming_isIdentifier comma (next :: rest) r hr).not_mem hclose
        have hread := s.readCode_of_shows number hline hrow (.inr rfl)
        rw [if_pos (origin.opensList hfirst)] at hread
        rw [readLines_cons, readLine_of_code hs, hread,
          readLines_enclosed (number + 1) rfl hothers htail]
        rfl

/-- The scan with more imports. -/
def withImports (s : PythonScan) (found : List Import) : PythonScan :=
  { s with imports := s.imports ++ found }

@[simp] theorem withImports_nil (s : PythonScan) : s.withImports [] = s := by
  have himports : s.imports ++ ([] : List Import) = s.imports := Array.ext' (by simp)
  rw [withImports, himports]

theorem withImports_withImports (s : PythonScan) (found more : List Import) :
    (s.withImports found).withImports more = s.withImports (found ++ more) := by
  have himports : s.imports ++ found ++ more = s.imports ++ (found ++ more) :=
    Array.ext' (by simp)
  rw [withImports, withImports, withImports, himports]

theorem addStatement_onOneLine {s : PythonScan} (hs : s.mode = .code) (number : Nat)
    (statement : Statement) : s.addStatement number (onOneLine statement.rows) =
      s.withImports (statement.found.map (importAt number)) := by
  rw [addStatement, statementImports_onOneLine, withImports, hs]

/-- The lines of statements give the imports that are found in the statements, in order. -/
theorem readLines_statements (statements : List Statement) :
    ∀ {s : PythonScan} (number : Nat) {text : List (List Char)}, s.mode = .code →
      List.Forall₂ Shows text (statements.flatMap Statement.rows) →
        s.readLines number text =
          s.withImports (importsFrom Statement.found number statements) := by
  induction statements with
  | nil =>
    intro s number text _ htext
    obtain rfl := List.forall₂_nil_right_iff.mp htext
    exact s.withImports_nil.symm
  | cons statement rest ih =>
    intro s number text hs htext
    rw [List.flatMap_cons] at htext
    -- the lines of the first statement, and those of the others
    have hfirst := List.forall₂_take_append text _ _ htext
    have hothers := List.forall₂_drop_append text _ _ htext
    have hcode : (s.withImports (statement.found.map (importAt number))).mode = .code := hs
    have hread := ih (number + statement.rows.length) hcode hothers
    rw [← List.take_append_drop statement.rows.length text, readLines_append, hfirst.length_eq,
      readLines_statement hs number statement hfirst, addStatement_onOneLine hs number statement,
      hread, withImports_withImports]
    rfl

end PythonScan

/-! ## The scanner on a page -/

theorem getLast?_enclosedRows (rest : List (List Char)) : ∀ row : List Char,
    ∃ last, (enclosedRows row rest).getLast? = some (last ++ [')']) := by
  induction rest with
  | nil => exact fun row => ⟨row, rfl⟩
  | cons next rest ih =>
    intro row
    obtain ⟨last, hlast⟩ := ih next
    refine ⟨last, ?_⟩
    rw [enclosedRows, List.getLast?_cons, hlast]
    rfl

/-- No statement ends with an empty row. -/
theorem Statement.getLast?_rows (s : Statement) :
    ∃ last, s.rows.getLast? = some last ∧ last ≠ [] := by
  cases s with
  | modules first rest => exact ⟨_, rfl, List.cons_ne_nil _ _⟩
  | names origin list =>
    cases list with
    | bare first rest => exact ⟨_, rfl, List.cons_ne_nil _ _⟩
    | enclosed first rest comma hsome =>
      obtain ⟨last, hlast⟩ := getLast?_enclosedRows (rowTexts comma rest)
        (origin.start ++ '(' :: rowText (comma || rest.any (!·.isEmpty)) first)
      exact ⟨_, hlast, List.concat_ne_nil _ _⟩

theorem getLast?_flatMap_rows_ne (statements : List Statement) :
    (statements.flatMap Statement.rows).getLast? ≠ some [] := by
  induction statements with
  | nil => exact nofun
  | cons s rest ih =>
    rw [List.flatMap_cons, List.getLast?_append]
    cases hrest : (rest.flatMap Statement.rows).getLast? with
    | some row =>
      rw [Option.some_or, ← hrest]
      exact ih
    | none =>
      obtain ⟨last, hlast, hne⟩ := s.getLast?_rows
      rw [Option.none_or, hlast]
      exact fun h => hne (Option.some.inj h)

/-- Whatever the margins, the scanner finds the names that are read, in order and on the lines on
which their statements start, and nothing else. -/
theorem scan_eq_found (closed : Bool) (margin : Nat → Margin) (statements : List Statement) :
    scan (page closed margin statements) = ⟨importsFrom Statement.found 1 statements, []⟩ := by
  have hrows : ∀ row ∈ statements.flatMap Statement.rows, IsRow isStatementChar row := by
    intro row hrow
    obtain ⟨s, -, hmem⟩ := List.mem_flatMap.mp hrow
    exact s.isRow_of_mem_rows row hmem
  have hlines := lines_pageText closed margin hrows (getLast?_flatMap_rows_ne statements) 1
  have hread := PythonScan.readLines_statements statements 1 (s := {}) rfl hlines
  show (PythonScan.readLines {} 1 (lines (page closed margin statements))).result = _
  rw [page, hread]
  simp [PythonScan.withImports, PythonScan.result]

/-- Whatever the margins, all imports of a page are found, in order and on the lines on which their
statements start, and nothing else, exactly if no name is taken for the word before an alias. -/
theorem scan_page_iff (closed : Bool) (margin : Nat → Margin) (statements : List Statement) :
    scan (page closed margin statements) = ⟨importsFrom Statement.specifiers 1 statements, []⟩ ↔
      ∀ s ∈ statements, s.Clear := by
  rw [scan_eq_found, ParsedFile.mk.injEq, and_iff_left rfl]
  exact importsFrom_found_eq_iff statements 1

/-- Statements of every form. The names of the last one go over four rows, and one of them is the
word before an alias. -/
def sampleStatements : List Statement :=
  [.modules { name := ['a'] } [{ name := ['b', '.', 'c'], alias? := some ['d'] }],
    .names (.named ['.', 'm'] (by decide))
      (.bare { name := ['U'], alias? := some ['V'] } []),
    .names (.package 1)
      (.enclosed [] [[{ name := ['x'] }, { name := ['a', 's'] }], [], [{ name := ['z'] }]] false
        (List.cons_ne_nil _ _))]

/-- Margins with a comment on the second and the fifth line. -/
def sampleMargin : Nat → Margin
  | 2 => { lead := ['\t'], gap := [' '], comment? := some [' ', 'w', 'h', 'y', ')'] }
  | 5 => { comment? := some ['\'', '\'', '\''] }
  | _ => {}

theorem scan_page_sample :
    page false sampleMargin sampleStatements =
        ("import a, b.c as d\n\tfrom .m import U as V # why)\n" ++
          "from .. import (\nx, as,\n#'''\nz)").toList ∧
      scan (page false sampleMargin sampleStatements) =
        ⟨[⟨"a", .static, 1⟩, ⟨"b.c", .static, 1⟩, ⟨".m", .static, 2⟩, ⟨"..x", .static, 3⟩,
          ⟨"..as", .static, 3⟩, ⟨"..z", .static, 3⟩], []⟩ := by
  have hclear : ∀ s ∈ sampleStatements, s.Clear := by
    simp [sampleStatements, Statement.Clear, NameList.spots, joinedSpots, rowsSpots, rowSpots,
      Spot.isClear, asWord]
  refine ⟨by decide, ?_⟩
  rw [(scan_page_iff false sampleMargin sampleStatements).mpr hclear]
  decide

/-- Not every import of every page is found: a module of the name `as` that has an alias is lost
behind another one. -/
theorem page_loses_as :
    ¬ ∀ (closed : Bool) (margin : Nat → Margin) (statements : List Statement),
      scan (page closed margin statements) =
        ⟨importsFrom Statement.specifiers 1 statements, []⟩ := by
  intro hall
  have h := hall true (fun _ => {})
    [.modules { name := ['a'] } [{ name := ['a', 's'], alias? := some ['b'] }]]
  revert h
  decide

end DepGraph.Python

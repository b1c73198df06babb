import DepGraph.Proofs.Source.PythonBlocks
import DepGraph.Proofs.Source.PythonClauses

/-!
# Import statements

The import statements of a Python source and what the scanner reads in them. A statement is written
in one row, or in several if its names stand in parentheses; then the scanner puts the rows on one
line before it reads them.

- `Statement`, `Statement.rows`, `Statement.specifiers`: the statements, how they are written and
  what they import.
- `Statement.found`: what is found of that; `found_eq_specifiers_iff`: all of it, unless a name is
  taken for the word before an alias.
- `IsRow`: a row has blanks inside, if at all; `Statement.isRow_of_mem_rows`.
- `statementImports_onOneLine`: what the rows of a statement say when they are put on one line.
-/

namespace DepGraph.Python

open DepGraph.Text

/-! ## Statements -/

/-- What names are imported from: a module, or a package. From the package of the source itself
packages are counted upwards. -/
inductive Origin where
  | named (path : List Char) (h : isModulePath path = true)
  | package (above : Nat)

/-- The origin as it is written. -/
def Origin.text : Origin → List Char
  | named path _ => path
  | package above => List.replicate (above + 1) '.'

/-- The start of a statement that imports names from the origin. -/
def Origin.start (origin : Origin) : List Char :=
  "from ".toList ++ origin.text ++ " import ".toList

theorem Origin.start_append (origin : Origin) (names : List Char) :
    origin.start ++ names = "from ".toList ++ (origin.text ++ " import ".toList ++ names) := by
  have hstart : origin.start = "from ".toList ++ (origin.text ++ " import ".toList) :=
    List.append_assoc _ _ _
  rw [hstart, List.append_assoc]

/-- A list of names: on one line, or in parentheses and in any number of rows, which may be empty.
In parentheses a comma may follow the last name. -/
inductive NameList where
  | bare (first : Clause isIdentifier) (rest : List (Clause isIdentifier))
  | enclosed (first : List (Clause isIdentifier)) (rest : List (List (Clause isIdentifier)))
      (comma : Bool) (h : (first :: rest).flatten ≠ [])

/-- The clauses of a list of names, in order. -/
def NameList.clauses : NameList → List (Clause isIdentifier)
  | bare first rest => first :: rest
  | enclosed first rest _ _ => (first :: rest).flatten

/-- An import statement. -/
inductive Statement where
  | modules (first : Clause isModulePath) (rest : List (Clause isModulePath))
  | names (origin : Origin) (list : NameList)

/-- The rows of a list in parentheses, given without the closing one. -/
def enclosedRows : List Char → List (List Char) → List (List Char)
  | row, [] => [row ++ [')']]
  | row, next :: rest => row :: enclosedRows next rest

namespace Statement

/-- The rows in which a statement is written. -/
def rows : Statement → List (List Char)
  | modules first rest => ["import ".toList ++ joined first rest]
  | names origin (.bare first rest) => [origin.start ++ joined first rest]
  | names origin (.enclosed first rest comma _) =>
    enclosedRows (origin.start ++ '(' :: rowText (comma || rest.any (!·.isEmpty)) first)
      (rowTexts comma rest)

/-- What a statement imports: its modules, the module from which it takes names, or the modules of a
package. -/
def specifiers : Statement → List (List Char)
  | modules first rest => (first :: rest).map Clause.name
  | names (.named path _) _ => [path]
  | names (.package above) list => list.clauses.map (List.replicate (above + 1) '.' ++ ·.name)

end Statement

/-- Where the clauses of a list of names are read. -/
def NameList.spots : NameList → List (Spot isIdentifier)
  | bare first rest => joinedSpots false false first rest
  | enclosed first rest comma _ => rowsSpots false comma (first :: rest)

theorem NameList.map_clause_spots (list : NameList) :
    list.spots.map Spot.clause = list.clauses := by
  cases list with
  | bare first rest => exact map_clause_joinedSpots false rest false first
  | enclosed first rest comma hsome => exact map_clause_rowsSpots comma (first :: rest) false

namespace Statement

/-- Where the names of clauses are read, none of them is taken for the word before an alias. -/
def Clear : Statement → Prop
  | modules first rest => ∀ s ∈ joinedSpots false false first rest, s.isClear = true
  | names (.named _ _) _ => True
  | names (.package _) list => ∀ s ∈ list.spots, s.isClear = true

/-- What is found of the imports of a statement: those with names that are read. -/
def found : Statement → List (List Char)
  | modules first rest => namesRead (joinedSpots false false first rest)
  | names (.named path _) _ => [path]
  | names (.package above) list =>
    (namesRead list.spots).map (List.replicate (above + 1) '.' ++ ·)

theorem found_sublist_specifiers (s : Statement) : s.found.Sublist s.specifiers := by
  cases s with
  | modules first rest =>
    have hread := namesRead_sublist (joinedSpots false false first rest)
    rwa [map_clause_joinedSpots] at hread
  | names origin list =>
    cases origin with
    | named path h => exact List.Sublist.refl _
    | package above =>
      have hread := (namesRead_sublist list.spots).map (List.replicate (above + 1) '.' ++ ·)
      rwa [list.map_clause_spots, List.map_map] at hread

/-- All imports of a statement are found exactly if no name is taken for the word before an
alias. -/
theorem found_eq_specifiers_iff (s : Statement) : s.found = s.specifiers ↔ s.Clear := by
  cases s with
  | modules first rest =>
    have hread := namesRead_eq_iff (joinedSpots false false first rest)
    rwa [map_clause_joinedSpots] at hread
  | names origin list =>
    cases origin with
    | named path h => exact iff_of_true rfl trivial
    | package above =>
      have hread := namesRead_eq_iff list.spots
      rw [list.map_clause_spots] at hread
      have hspecifiers : (names (.package above) list).specifiers =
          (list.clauses.map Clause.name).map (List.replicate (above + 1) '.' ++ ·) := by
        rw [List.map_map]
        rfl
      rw [hspecifiers]
      exact (List.map_inj_right fun _ _ => List.append_cancel_left).trans hread

end Statement

/-! ## Rows -/

/-- The characters of a list of clauses. -/
def isListChar (c : Char) : Bool :=
  isPathChar c || c == ' ' || c == ','

/-- The characters of a statement. -/
def isStatementChar (c : Char) : Bool :=
  isListChar c || c == '(' || c == ')'

theorem isListChar_of_isPathChar {c : Char} (h : isPathChar c = true) : isListChar c = true := by
  rw [isListChar, h, Bool.true_or, Bool.true_or]

theorem isStatementChar_of_isListChar {c : Char} (h : isListChar c = true) :
    isStatementChar c = true := by
  rw [isStatementChar, h, Bool.true_or, Bool.true_or]

/-- The text is a row with characters of the given kind: there are no blanks around it. -/
structure IsRow (isRowChar : Char → Bool) (row : List Char) : Prop where
  chars : ∀ c ∈ row, isRowChar c = true
  head?_ne : row.head? ≠ some ' '
  getLast?_ne : row.getLast? ≠ some ' '

namespace IsRow

section

variable {isRowChar : Char → Bool}

theorem nil : IsRow isRowChar [] :=
  ⟨List.forall_mem_nil _, nofun, nofun⟩

theorem singleton {c : Char} (hc : isRowChar c = true) (hne : c ≠ ' ') : IsRow isRowChar [c] :=
  ⟨List.forall_mem_singleton.mpr hc, fun h => hne (Option.some.inj h),
    fun h => hne (Option.some.inj h)⟩

theorem not_mem {row : List Char} (h : IsRow isRowChar row) {c : Char}
    (hc : isRowChar c = false) : c ∉ row := by
  intro hmem
  rw [h.chars c hmem] at hc
  exact Bool.noConfusion hc

theorem append {first last : List Char} (hfirst : IsRow isRowChar first)
    (hlast : IsRow isRowChar last) : IsRow isRowChar (first ++ last) := by
  refine ⟨fun c hc => (List.mem_append.mp hc).elim (hfirst.chars c) (hlast.chars c), ?_, ?_⟩
  · rw [List.head?_append]
    cases hhead : first.head? with
    | none => exact hlast.head?_ne
    | some c =>
      rw [Option.some_or, ← hhead]
      exact hfirst.head?_ne
  · rw [List.getLast?_append]
    cases hend : last.getLast? with
    | none => exact hfirst.getLast?_ne
    | some c =>
      rw [Option.some_or, ← hend]
      exact hlast.getLast?_ne

/-- Blanks do no harm between two rows that are not empty. -/
theorem append_append {first mid last : List Char} (hfirst : IsRow isRowChar first)
    (hne : first ≠ []) (hmid : ∀ c ∈ mid, isRowChar c = true) (hlast : IsRow isRowChar last)
    (hne' : last ≠ []) : IsRow isRowChar (first ++ mid ++ last) := by
  -- the ends are those of the outer rows
  obtain ⟨a, first, rfl⟩ := List.exists_cons_of_ne_nil hne
  obtain ⟨front, b, rfl⟩ := (List.eq_nil_or_concat last).resolve_left hne'
  rw [List.concat_eq_append] at hlast ⊢
  refine ⟨fun c hc => ?_, hfirst.head?_ne, ?_⟩
  · rcases List.mem_append.mp hc with hfront | hback
    · exact (List.mem_append.mp hfront).elim (hfirst.chars c) (hmid c)
    · exact hlast.chars c hback
  · have hend := hlast.getLast?_ne
    rw [List.getLast?_concat] at hend
    rwa [← List.append_assoc, List.getLast?_concat]

end

theorem of_isPathChar {text : List Char} (h : ∀ c ∈ text, isPathChar c = true) :
    IsRow isListChar text := by
  have hspace := space_not_mem_of_isPathChar h
  exact ⟨fun c hc => isListChar_of_isPathChar (h c hc),
    fun hhead => hspace (List.mem_of_head? hhead),
    fun hlast => hspace (List.mem_of_getLast? hlast)⟩

theorem of_list {row : List Char} (h : IsRow isListChar row) : IsRow isStatementChar row :=
  ⟨fun c hc => isStatementChar_of_isListChar (h.chars c hc), h.head?_ne, h.getLast?_ne⟩

theorem eq_space_of_isBlank {row : List Char} (h : IsRow isStatementChar row) {c : Char}
    (hc : c ∈ row) (hblank : isBlank c = true) : c = ' ' := by
  have hchar := h.chars c hc
  rw [isStatementChar, isListChar, isPathChar_eq_false_of_isBlank hblank] at hchar
  simp only [Bool.false_or, Bool.or_eq_true, beq_iff_eq] at hchar
  rcases hchar with ((rfl | rfl) | rfl) | rfl
  · rfl
  · exact absurd hblank (by decide)
  · exact absurd hblank (by decide)
  · exact absurd hblank (by decide)

theorem trim_eq {row : List Char} (h : IsRow isStatementChar row) : trim row = row := by
  refine trim_eq_self (fun c hc => ?_) (fun c hc => ?_)
  · rw [Bool.eq_false_iff]
    intro hblank
    exact h.head?_ne (h.eq_space_of_isBlank (List.mem_of_head? hc) hblank ▸ hc)
  · rw [Bool.eq_false_iff]
    intro hblank
    exact h.getLast?_ne (h.eq_space_of_isBlank (List.mem_of_getLast? hc) hblank ▸ hc)

theorem not_isQuote {row : List Char} (h : IsRow isStatementChar row) :
    ∀ c ∈ row, isQuote c = false := by
  intro c hc
  rw [Bool.eq_false_iff]
  intro hquote
  simp only [isQuote, Bool.or_eq_true, beq_iff_eq] at hquote
  rcases hquote with rfl | rfl
  · exact h.not_mem (by decide) hc
  · exact h.not_mem (by decide) hc

end IsRow

section

variable {isName : List Char → Bool}

theorem isRow_text (hnaming : IsNaming isName) (c : Clause isName) : IsRow isListChar c.text := by
  obtain ⟨hne, hpath⟩ := hnaming c.name c.isName_name
  have hname := IsRow.of_isPathChar hpath
  unfold Clause.text Clause.tail
  cases halias : c.alias? with
  | none =>
    rw [List.append_nil]
    exact hname
  | some a =>
    obtain ⟨hne', ha⟩ := isNaming_isIdentifier a (c.isIdentifier_alias a halias)
    have hword : ∀ b ∈ " as ".toList, isListChar b = true :=
      List.all_eq_true.mp (by decide)
    rw [← List.append_assoc]
    exact hname.append_append hne hword (IsRow.of_isPathChar ha) hne'

theorem text_ne_nil (hnaming : IsNaming isName) (c : Clause isName) : c.text ≠ [] :=
  List.append_ne_nil_of_left_ne_nil (hnaming c.name c.isName_name).1 _

theorem joined_ne_nil (hnaming : IsNaming isName) (first : Clause isName)
    (rest : List (Clause isName)) : joined first rest ≠ [] := by
  have hfirst := text_ne_nil hnaming first
  cases rest with
  | nil => exact hfirst
  | cons next rest =>
    exact List.append_ne_nil_of_left_ne_nil (List.append_ne_nil_of_left_ne_nil hfirst _) _

theorem isRow_joined (hnaming : IsNaming isName) (rest : List (Clause isName)) :
    ∀ first : Clause isName, IsRow isListChar (joined first rest) := by
  induction rest with
  | nil => exact fun first => isRow_text hnaming first
  | cons next rest ih =>
    intro first
    have hcomma : ∀ b ∈ ", ".toList, isListChar b = true :=
      List.all_eq_true.mp (by decide)
    exact (isRow_text hnaming first).append_append (text_ne_nil hnaming first) hcomma (ih next)
      (joined_ne_nil hnaming next rest)

theorem isRow_rowText (hnaming : IsNaming isName) (comma : Bool) (row : List (Clause isName)) :
    IsRow isListChar (rowText comma row) := by
  cases row with
  | nil => exact .nil
  | cons first rest =>
    refine (isRow_joined hnaming rest first).append ?_
    split
    · exact .singleton (by decide) (by decide)
    · exact .nil

theorem isRow_rowTexts (hnaming : IsNaming isName) (comma : Bool)
    (rows : List (List (Clause isName))) :
    ∀ row ∈ rowTexts comma rows, IsRow isListChar row := by
  induction rows with
  | nil => exact fun _ hrow => absurd hrow List.not_mem_nil
  | cons row rows ih =>
    intro text htext
    rcases List.mem_cons.mp htext with rfl | hrest
    · exact isRow_rowText hnaming _ row
    · exact ih text hrest

end

theorem isRow_enclosedRows {rest : List (List Char)} (hrest : ∀ row ∈ rest, IsRow isListChar row) :
    ∀ {row : List Char}, IsRow isStatementChar row →
      ∀ text ∈ enclosedRows row rest, IsRow isStatementChar text := by
  induction rest with
  | nil =>
    intro row hrow text htext
    rw [List.mem_singleton.mp htext]
    exact hrow.append (.singleton (by decide) (by decide))
  | cons next rest ih =>
    intro row hrow text htext
    rcases List.mem_cons.mp htext with rfl | htail
    · exact hrow
    · exact ih (fun row' hrow' => hrest row' (List.mem_cons_of_mem next hrow'))
        (hrest next (List.mem_cons_self ..)).of_list text htail

theorem all_isPathChar_origin (origin : Origin) : ∀ c ∈ origin.text, isPathChar c = true := by
  cases origin with
  | named path h => exact (isNaming_isModulePath path h).2
  | package above =>
    intro c hc
    rw [List.eq_of_mem_replicate hc]
    decide

theorem all_isListChar_start (origin : Origin) : ∀ c ∈ origin.start, isListChar c = true := by
  intro c hc
  rcases List.mem_append.mp hc with hfront | himport
  · rcases List.mem_append.mp hfront with hfrom | horigin
    · have hall : ∀ b ∈ "from ".toList, isListChar b = true :=
        List.all_eq_true.mp (by decide)
      exact hall c hfrom
    · exact isListChar_of_isPathChar (all_isPathChar_origin origin c horigin)
  · have hall : ∀ b ∈ " import ".toList, isListChar b = true :=
      List.all_eq_true.mp (by decide)
    exact hall c himport

theorem Origin.not_mem_start (origin : Origin) {c : Char} (hc : isListChar c = false) :
    c ∉ origin.start := by
  intro hmem
  rw [all_isListChar_start origin c hmem] at hc
  exact Bool.noConfusion hc

/-- Names in parentheses on the line of their origin open a list, and leave it open. -/
theorem Origin.opensList (origin : Origin) {names : List Char} (h : ')' ∉ names) :
    ("from ".toList.isPrefixOf (origin.start ++ '(' :: names) &&
      (origin.start ++ '(' :: names).contains '(' &&
        !(origin.start ++ '(' :: names).contains ')') = true := by
  have hfrom : "from ".toList.isPrefixOf (origin.start ++ '(' :: names) = true := by
    rw [List.isPrefixOf_iff_prefix, origin.start_append]
    exact List.prefix_append _ _
  have hclose : ')' ∉ origin.start ++ '(' :: names := by
    intro hmem
    rcases List.mem_append.mp hmem with hstart | hnames
    · exact origin.not_mem_start (by decide) hstart
    · exact List.not_mem_cons_of_ne_of_not_mem (by decide) h hnames
  rw [hfrom, Bool.true_and, Bool.and_eq_true]
  exact ⟨by simp, by simpa using hclose⟩

theorem isRow_start (origin : Origin) {names : List Char} (hnames : IsRow isStatementChar names)
    (hne : names ≠ []) : IsRow isStatementChar (origin.start ++ names) := by
  have hsplit : origin.start = "from".toList ++ (' ' :: (origin.text ++ " import ".toList)) :=
    List.append_assoc "from ".toList origin.text " import ".toList
  have hfrom : IsRow isListChar "from".toList :=
    .of_isPathChar (List.all_eq_true.mp (by decide))
  have hmid : ∀ c ∈ ' ' :: (origin.text ++ " import ".toList), isStatementChar c = true := by
    intro c hc
    refine isStatementChar_of_isListChar (all_isListChar_start origin c ?_)
    rw [hsplit]
    exact List.mem_append_right _ hc
  rw [hsplit]
  exact hfrom.of_list.append_append (by decide) hmid hnames hne

theorem Statement.isRow_of_mem_rows (s : Statement) :
    ∀ row ∈ s.rows, IsRow isStatementChar row := by
  cases s with
  | modules first rest =>
    intro row hrow
    rw [List.mem_singleton.mp hrow]
    have himport : IsRow isListChar "import".toList :=
      .of_isPathChar (List.all_eq_true.mp (by decide))
    have hspace : ∀ c ∈ [' '], isListChar c = true := List.all_eq_true.mp (by decide)
    exact (himport.append_append (by decide) hspace (isRow_joined isNaming_isModulePath rest first)
      (joined_ne_nil isNaming_isModulePath first rest)).of_list
  | names origin list =>
    cases list with
    | bare first rest =>
      intro row hrow
      rw [List.mem_singleton.mp hrow]
      exact isRow_start origin (isRow_joined isNaming_isIdentifier rest first).of_list
        (joined_ne_nil isNaming_isIdentifier first rest)
    | enclosed first rest comma hsome =>
      have hfirst := isRow_rowText isNaming_isIdentifier (comma || rest.any (!·.isEmpty)) first
      have hparen : IsRow isStatementChar ['('] := .singleton (by decide) (by decide)
      exact isRow_enclosedRows (isRow_rowTexts isNaming_isIdentifier comma rest)
        (isRow_start origin (hparen.append hfirst.of_list) (List.cons_ne_nil _ _))

/-! ## Reading a statement on one line -/

/-- The text of rows that are put on one line. -/
def onOneLine : List (List Char) → List Char
  | [] => []
  | row :: rows => row ++ rows.flatMap (' ' :: ·)

theorem onOneLine_enclosedRows (rest : List (List Char)) : ∀ row,
    onOneLine (enclosedRows row rest) = row ++ rest.flatMap (' ' :: ·) ++ [')'] := by
  induction rest with
  | nil =>
    intro row
    rw [enclosedRows, onOneLine, List.flatMap_nil, List.append_nil, List.append_nil]
  | cons next rest ih =>
    intro row
    have hnext : (enclosedRows next rest).flatMap (' ' :: ·) =
        ' ' :: onOneLine (enclosedRows next rest) := by
      cases rest <;> rfl
    rw [enclosedRows, onOneLine, hnext, ih next, List.flatMap_cons]
    simp only [List.append_assoc, List.cons_append]

theorem lists_joined_nil {isName : List Char → Bool} (first : Clause isName)
    (rest : List (Clause isName)) :
    Lists (joinedSpots false false first rest) (joined first rest) := by
  have hlists := lists_joined (List.forall_mem_nil _) rest first (List.forall_mem_nil _)
  rwa [List.nil_append, List.append_nil] at hlists

theorem plainImports_joined (line : Nat) (first : Clause isModulePath)
    (rest : List (Clause isModulePath)) : plainImports line (joined first rest) =
      (namesRead (joinedSpots false false first rest)).map (importAt line) := by
  unfold plainImports
  rw [(lists_joined_nil first rest).map_beforeAlias isNaming_isModulePath]

/-- From a module nothing but the module itself is imported. -/
theorem fromImports_path (line : Nat) {path : List Char} (h : isModulePath path = true)
    (names : List Char) : fromImports line path names = [importAt line path] := by
  obtain ⟨hne, hpath⟩ := isNaming_isModulePath path h
  have hdots : path.all (· == '.') = false := by
    rw [Bool.eq_false_iff]
    intro hall
    have hbody : path.dropWhile (· == '.') = [] :=
      List.dropWhile_eq_nil_iff.mpr (List.all_eq_true.mp hall)
    rw [isModulePath, hbody] at h
    exact Bool.false_ne_true h
  unfold fromImports
  dsimp only
  rw [trim_of_isPathChar hpath, hdots, Bool.and_false, if_neg Bool.false_ne_true, if_pos h]

/-- From a package every name that is read in the list is imported, in parentheses or not. -/
theorem fromImports_package (line above : Nat) {spots : List (Spot isIdentifier)}
    {names : List Char}
    (h : Lists spots (names.filter fun c => c != '(' && c != ')')) :
    fromImports line (List.replicate (above + 1) '.') names =
      ((namesRead spots).map (List.replicate (above + 1) '.' ++ ·)).map (importAt line) := by
  have hdot : ∀ c ∈ List.replicate (above + 1) '.', c = '.' := fun c hc =>
    List.eq_of_mem_replicate hc
  have htrim : trim (List.replicate (above + 1) '.') = List.replicate (above + 1) '.' := by
    refine trim_of_isPathChar fun c hc => ?_
    rw [hdot c hc]
    decide
  have hall : (List.replicate (above + 1) '.').all (· == '.') = true := by
    rw [List.all_eq_true]
    exact fun c hc => beq_iff_eq.mpr (hdot c hc)
  have hne : (List.replicate (above + 1) '.').isEmpty = false := rfl
  unfold fromImports
  dsimp only
  rw [htrim, hall, hne, Bool.not_false, Bool.true_and, if_pos rfl,
    h.map_beforeAlias isNaming_isIdentifier, List.map_map]
  rfl

theorem statementImports_start (line : Nat) (origin : Origin) (names : List Char) :
    statementImports line (origin.start ++ names) = fromImports line origin.text names := by
  have horigin := space_not_mem_of_isPathChar (all_isPathChar_origin origin)
  have hbreak : breakOn " import ".toList (origin.text ++ " import ".toList ++ names) =
      some (origin.text, names) := breakOn_append horigin names
  have hfrom : afterKeyword "from " (origin.start ++ names) =
      some (origin.text ++ " import ".toList ++ names) := by
    rw [origin.start_append]
    rfl
  have himport : afterKeyword "import " (origin.start ++ names) = none := rfl
  unfold statementImports
  rw [himport, hfrom]
  dsimp only
  rw [hbreak]

theorem filter_parens_of_isListChar {text : List Char} (h : ∀ b ∈ text, isListChar b = true) :
    (text.filter fun c => c != '(' && c != ')') = text := by
  rw [List.filter_eq_self]
  intro b hb
  rw [Bool.and_eq_true, bne_iff_ne, bne_iff_ne]
  constructor
  · rintro rfl
    exact absurd (h _ hb) (by decide)
  · rintro rfl
    exact absurd (h _ hb) (by decide)

/-- What the rows of a statement say when they are put on one line. -/
theorem statementImports_onOneLine (line : Nat) (s : Statement) :
    statementImports line (onOneLine s.rows) = s.found.map (importAt line) := by
  cases s with
  | modules first rest =>
    have himport : afterKeyword "import " ("import ".toList ++ joined first rest) =
        some (joined first rest) := rfl
    have hplain := plainImports_joined line first rest
    show statementImports line ("import ".toList ++ joined first rest ++ []) = _
    rw [List.append_nil, statementImports, himport]
    exact hplain
  | names origin list =>
    cases list with
    | bare first rest =>
      show statementImports line (origin.start ++ joined first rest ++ []) = _
      rw [List.append_nil, statementImports_start]
      cases origin with
      | named path hpath => exact fromImports_path line hpath _
      | package above =>
        refine fromImports_package line above ?_
        rw [filter_parens_of_isListChar (isRow_joined isNaming_isIdentifier rest first).chars]
        exact lists_joined_nil first rest
    | enclosed first rest comma hsome =>
      show statementImports line (onOneLine (enclosedRows _ _)) = _
      rw [onOneLine_enclosedRows, List.append_assoc, List.append_assoc, statementImports_start]
      cases origin with
      | named path hpath => exact fromImports_path line hpath _
      | package above =>
        refine fromImports_package line above ?_
        -- without the parentheses the line is one list
        have hlists := lists_rowText_rows first (lists_rows comma rest)
          (List.forall_mem_nil _)
        have hfirst := filter_parens_of_isListChar
          (isRow_rowText isNaming_isIdentifier (comma || rest.any (!·.isEmpty)) first).chars
        have hrows : (((rowTexts comma rest).flatMap (' ' :: ·)).filter
            fun c => c != '(' && c != ')') = (rowTexts comma rest).flatMap (' ' :: ·) := by
          refine filter_parens_of_isListChar fun b hb => ?_
          obtain ⟨row, hrow, hmem⟩ := List.mem_flatMap.mp hb
          rcases List.mem_cons.mp hmem with rfl | hin
          · decide
          · exact (isRow_rowTexts isNaming_isIdentifier comma rest row hrow).chars b hin
        rw [List.cons_append, List.filter_cons_of_neg (by decide), List.filter_append,
          List.filter_append, hfirst, hrows]
        exact (List.append_nil _).symm ▸ hlists

end DepGraph.Python

import DepGraph.Proofs.Source.PythonStatements

/-!
# Gaps in lists

When the lines of a list in parentheses are put on one line, an empty one among them makes a gap of
one blank between its neighbours a gap of two. Between the names of a list this is nothing to the
scanner: a gap at the end of a clause is trimmed away, and a clause with a gap in its middle has no
name before it, however wide the gap. Only right behind the word `import` a blank more could turn
the name `as` into the word before an alias. No line of an open list ends there, for its parenthesis
comes first.

- `SameName`: two texts that are the same name, or no names.
- `sameName_trim`, `sameName_beforeAlias`: a wider gap in a text, and in a clause.
- `filter_beforeAlias_gap`: a wider gap in a list of clauses.
- `fromImports_of_paren`: from a package with a parenthesis nothing is imported.
- `statementImports_gap`: a wider gap in a statement behind its parenthesis.
-/

namespace DepGraph.Python

open DepGraph.Text

/-! ## Gaps in a clause -/

/-- The texts are the same name, or neither of them is a name. -/
def SameName (isName : List Char → Bool) (text text' : List Char) : Prop :=
  [text].filter isName = [text'].filter isName

theorem sameName_of_not {isName : List Char → Bool} {text text' : List Char}
    (h : ¬ isName text = true) (h' : ¬ isName text' = true) : SameName isName text text' := by
  rw [SameName, List.filter_cons_of_neg h, List.filter_cons_of_neg h']

section

variable {isName : List Char → Bool} (hnaming : IsNaming isName)

include hnaming

/-- A name has no blank in it, so that on one side of a blank there is nothing but blanks. -/
theorem blanks_of_isName_trim {first last : List Char}
    (h : isName (trim (first ++ ' ' :: last)) = true) :
    (∀ c ∈ first, isBlank c = true) ∨ ∀ c ∈ last, isBlank c = true := by
  have hspace := space_not_mem_of_isPathChar (hnaming _ h).2
  obtain ⟨lead, trail, hlead, htrail, heq⟩ := exists_eq_surround (first ++ ' ' :: last)
  rw [List.append_assoc] at heq
  rcases List.append_eq_append_iff.mp heq with ⟨rest, rfl, -⟩ | ⟨rest, rfl, hrest⟩
  · exact .inl fun c hc => hlead c (List.mem_append_left _ hc)
  rcases List.append_eq_append_iff.mp hrest with ⟨rest', -, rfl⟩ | ⟨rest', hname, hrest'⟩
  · exact .inr fun c hc => htrail c (List.mem_append_right _ (List.mem_cons_of_mem _ hc))
  cases rest' with
  | nil =>
    rw [List.nil_append] at hrest'
    exact .inr fun c hc => htrail c (hrest' ▸ List.mem_cons_of_mem _ hc)
  | cons c rest' =>
    obtain ⟨rfl, -⟩ := List.cons.inj hrest'
    refine absurd ?_ hspace
    rw [hname]
    exact List.mem_append_right _ (List.mem_cons_self ..)

/-- A wider gap in a piece. -/
theorem sameName_trim (first last : List Char) :
    SameName isName (trim (first ++ ' ' :: last)) (trim (first ++ ' ' :: ' ' :: last)) := by
  have hgap : ∀ c ∈ [' '], isBlank c = true := List.forall_mem_singleton.mpr (by decide)
  by_cases hblank : (∀ c ∈ first, isBlank c = true) ∨ ∀ c ∈ last, isBlank c = true
  · -- with blanks alone on one side of the gap both texts are the other side
    have htrim : trim (first ++ ' ' :: last) = trim (first ++ ' ' :: ' ' :: last) := by
      rcases hblank with hfirst | hlast
      · have hlead : ∀ gap, (∀ c ∈ gap, isBlank c = true) →
            trim (first ++ (gap ++ last)) = trim last := by
          intro gap hgap
          have hsides := trim_surround (List.forall_mem_append.mpr ⟨hfirst, hgap⟩)
            (List.forall_mem_nil _) last
          rwa [List.append_nil, List.append_assoc] at hsides
        exact (hlead [' '] hgap).trans
          (hlead [' ', ' '] (List.forall_mem_append.mpr ⟨hgap, hgap⟩)).symm
      · have htrail : ∀ gap, (∀ c ∈ gap, isBlank c = true) →
            trim (first ++ (gap ++ last)) = trim first := fun gap hgap =>
          trim_surround (List.forall_mem_nil _) (List.forall_mem_append.mpr ⟨hgap, hlast⟩) first
        exact (htrail [' '] hgap).trans
          (htrail [' ', ' '] (List.forall_mem_append.mpr ⟨hgap, hgap⟩)).symm
    rw [htrim]
    rfl
  · refine sameName_of_not (fun h => hblank (blanks_of_isName_trim hnaming h)) fun h => ?_
    rcases blanks_of_isName_trim hnaming h with hfirst | hlast
    · exact hblank (.inl hfirst)
    · exact hblank (.inr fun c hc => hlast c (List.mem_cons_of_mem _ hc))

/-- A wider gap in a clause. -/
theorem sameName_beforeAlias (first last : List Char) :
    SameName isName (beforeAlias (first ++ ' ' :: last))
      (beforeAlias (first ++ ' ' :: ' ' :: last)) := by
  unfold beforeAlias
  cases hfirst : breakOn " as ".toList (first ++ [' ']) with
  | some pieces =>
    -- the clause is cut before the gap
    have hcut : ∀ rest, upTo " as ".toList (first ++ ' ' :: rest) = pieces.1 := by
      intro rest
      rw [List.append_cons first ' ' rest, upTo, breakOn_append_of_eq_some hfirst]
    rw [hcut, hcut]
    rfl
  | none =>
    have has : ' ' ∉ asWord := by decide
    have hcut : ∀ rest, upTo " as ".toList (first ++ ' ' :: rest) =
        first ++ upTo " as ".toList (' ' :: rest) := upTo_append_of_eq_none has hfirst
    have hgap : upTo " as ".toList (' ' :: ' ' :: last) = ' ' :: upTo " as ".toList (' ' :: last) :=
      @upTo_append_of_eq_none ' ' asWord [' '] has rfl last
    rw [hcut, hcut, hgap]
    -- what is left behind the gap starts with a blank, or nothing is
    rcases List.prefix_cons_iff.mp (upTo_prefix_self " as ".toList (' ' :: last)) with
      hnil | ⟨rest, hrest, -⟩
    · have htrim := trim_surround (List.forall_mem_nil _)
        (List.forall_mem_singleton.mpr (by decide) : ∀ c ∈ [' '], isBlank c = true) first
      rw [hnil, List.append_nil, ← htrim]
      rfl
    · rw [hrest]
      exact sameName_trim hnaming first rest

/-- A wider gap in a list of clauses. -/
theorem filter_beforeAlias_gap (first last : List Char) :
    ((splitAt (· == ',') (first ++ ' ' :: last)).map beforeAlias).filter isName =
      ((splitAt (· == ',') (first ++ ' ' :: ' ' :: last)).map beforeAlias).filter isName := by
  obtain ⟨front, start, stop, back, hsplit⟩ := exists_splitAt_append (· == ',') first last
  have hcomma : (' ' == ',') = false := by decide
  have hone : ∀ c ∈ [' '], (c == ',') = false := List.forall_mem_singleton.mpr hcomma
  have hnarrow := hsplit [' '] hone
  have hwide := hsplit [' ', ' '] (List.forall_mem_cons.mpr ⟨hcomma, hone⟩)
  have hsame := sameName_beforeAlias hnaming start stop
  simp only [List.append_assoc, List.cons_append, List.nil_append] at hnarrow hwide
  rw [hnarrow, hwide]
  -- no other piece changes
  simp only [List.map_append, List.map_cons, List.filter_append]
  rw [← List.singleton_append, List.filter_append, hsame, ← List.filter_append,
    List.singleton_append]

end

/-! ## Gaps in a statement -/

theorem mem_trim {c : Char} (hc : isBlank c = false) {text : List Char} (h : c ∈ text) :
    c ∈ trim text := by
  obtain ⟨lead, trail, hlead, htrail, heq⟩ := exists_eq_surround text
  rw [heq] at h
  rcases List.mem_append.mp h with hfront | hback
  · rcases List.mem_append.mp hfront with hin | hin
    · exact absurd (hlead c hin) (by rw [hc]; exact Bool.false_ne_true)
    · exact hin
  · exact absurd (htrail c hback) (by rw [hc]; exact Bool.false_ne_true)

/-- From a package with a parenthesis nothing is imported. -/
theorem fromImports_of_paren {package : List Char} (h : '(' ∈ package) (line : Nat)
    (names : List Char) : fromImports line package names = [] := by
  have hmem : '(' ∈ trim package := mem_trim (by decide) h
  have hdots : (trim package).all (· == '.') = false := by
    rw [List.all_eq_false]
    exact ⟨'(', hmem, by decide⟩
  have hpath : ¬ isModulePath (trim package) = true := by
    intro hpath
    exact absurd ((isNaming_isModulePath _ hpath).2 '(' hmem) (by decide)
  unfold fromImports
  dsimp only
  rw [hdots, Bool.and_false, if_neg Bool.false_ne_true, if_neg hpath]

theorem fromImports_gap (line : Nat) (package first last : List Char) :
    fromImports line package (first ++ ' ' :: last) =
      fromImports line package (first ++ ' ' :: ' ' :: last) := by
  have hgap : ∀ text, (' ' :: text).filter (fun c => c != '(' && c != ')') =
      ' ' :: text.filter (fun c => c != '(' && c != ')') := fun text =>
    List.filter_cons_of_pos (by decide)
  unfold fromImports
  simp only [List.filter_append, hgap]
  rw [filter_beforeAlias_gap isNaming_isIdentifier]

/-- What a `from` statement imports, by where it is cut. -/
theorem statementImports_from (line : Nat) (text : List Char) :
    statementImports line ("from ".toList ++ text) =
      match breakOn " import ".toList text with
      | none => []
      | some (package, names) => fromImports line package names := rfl

/-- A wider gap in a statement behind its parenthesis. -/
theorem statementImports_gap {first : List Char} (hfrom : "from ".toList <+: first)
    (hparen : '(' ∈ first) (line : Nat) (last : List Char) :
    statementImports line (first ++ ' ' :: last) =
      statementImports line (first ++ ' ' :: ' ' :: last) := by
  obtain ⟨text, rfl⟩ := hfrom
  have hin : '(' ∈ text := (List.mem_append.mp hparen).resolve_left (by decide)
  rw [List.append_assoc, List.append_assoc, statementImports_from, statementImports_from]
  cases hcut : breakOn " import ".toList (text ++ [' ']) with
  | some pieces =>
    obtain ⟨package, names⟩ := pieces
    have hmore : ∀ rest, breakOn " import ".toList (text ++ ' ' :: rest) =
        some (package, names ++ rest) := by
      intro rest
      rw [List.append_cons text ' ' rest, breakOn_append_of_eq_some hcut]
    have hwhole := append_of_breakOn hcut
    rw [hmore, hmore]
    dsimp only
    rcases List.eq_nil_or_concat names with rfl | ⟨front, c, rfl⟩
    · -- the word before the names ends at the gap, so the parenthesis stands before that word
      have hpackage : '(' ∈ package := by
        have hmem : '(' ∈ package ++ " import ".toList := by
          rw [List.append_nil] at hwhole
          exact hwhole ▸ List.mem_append_left _ hin
        exact (List.mem_append.mp hmem).resolve_right (by decide)
      rw [fromImports_of_paren hpackage, fromImports_of_paren hpackage]
    · have hc : c = ' ' := by
        rw [List.concat_eq_append, ← List.append_assoc] at hwhole
        exact (List.cons.inj (List.append_inj' hwhole rfl).2).1
      rw [hc, List.concat_eq_append, List.append_assoc, List.append_assoc]
      exact fromImports_gap line package front last
  | none =>
    have hlater : ∀ rest, (match breakOn " import ".toList (text ++ ' ' :: rest) with
        | none => []
        | some (package, names) => fromImports line package names) = [] := by
      intro rest
      have hbehind : breakOn " import ".toList (text ++ ' ' :: rest) =
          (breakOn " import ".toList (' ' :: rest)).map (Prod.map (text ++ ·) id) :=
        breakOn_append_of_eq_none (by decide : ' ' ∉ "import".toList) hcut rest
      rw [hbehind]
      cases breakOn " import ".toList (' ' :: rest) with
      | none => rfl
      | some pieces => exact fromImports_of_paren (List.mem_append_left _ hin) line _
    rw [hlater, hlater]

end DepGraph.Python

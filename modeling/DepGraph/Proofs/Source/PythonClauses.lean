import DepGraph.Proofs.Text.Pieces
import DepGraph.Source.Python

/-!
# Lists of clauses

An import statement lists names, each with an alias if it has one. The scanner takes such a list
apart at its commas and cuts every piece at the word that introduces an alias. The list may have
been spread over lines, so that a piece comes with blanks around it.

- `IsNaming`: what names of a kind have in common; `isNaming_isModulePath`, `isNaming_isIdentifier`.
- `Clause`, `joined`, `rowTexts`: clauses and how they are written on one line and on several.
- `Spot.isClear`: the name of a clause is not taken for the word before an alias.
- `Clause.filter_beforeAlias`: the name of a clause is read back if it is clear, and else is lost.
- `Lists`: a text lists clauses; `Lists.map_beforeAlias`: what is read of a list.
- `lists_joined`, `lists_rows`: the lists of one row and of several.
- `namesRead_eq_iff`: all names of a list are read exactly if all are clear.
-/

namespace DepGraph.Python

open DepGraph.Text

/-! ## Names -/

/-- The characters of module paths. -/
def isPathChar (c : Char) : Bool :=
  isWordChar c || c == '.'

theorem isPathChar_eq_false_of_isBlank {c : Char} (h : isBlank c = true) :
    isPathChar c = false := by
  have hdot : c ≠ '.' := by
    rintro rfl
    exact absurd h (by decide)
  unfold isPathChar
  rw [isWordChar_eq_false_of_isBlank h, Bool.false_or, beq_false_of_ne hdot]

theorem isBlank_eq_false_of_isPathChar {c : Char} (h : isPathChar c = true) :
    isBlank c = false := by
  rw [Bool.eq_false_iff]
  intro hblank
  rw [isPathChar_eq_false_of_isBlank hblank] at h
  exact Bool.false_ne_true h

/-- Names of the kind are not empty and have only characters of module paths. -/
def IsNaming (isName : List Char → Bool) : Prop :=
  ∀ name, isName name = true → name ≠ [] ∧ ∀ c ∈ name, isPathChar c = true

theorem isName_nil {isName : List Char → Bool} (h : IsNaming isName) : isName [] = false := by
  rw [Bool.eq_false_iff]
  exact fun hname => (h [] hname).1 rfl

theorem all_isWordChar_of_isIdentifier {name : List Char} (h : isIdentifier name = true) :
    name ≠ [] ∧ ∀ c ∈ name, isWordChar c = true := by
  cases name with
  | nil => exact absurd h Bool.false_ne_true
  | cons c rest =>
    rw [isIdentifier, Bool.and_eq_true, List.all_eq_true] at h
    exact ⟨List.cons_ne_nil c rest, h.2⟩

theorem isNaming_isIdentifier : IsNaming isIdentifier := by
  intro name h
  obtain ⟨hne, hword⟩ := all_isWordChar_of_isIdentifier h
  refine ⟨hne, fun c hc => ?_⟩
  rw [isPathChar, hword c hc, Bool.true_or]

theorem isNaming_isModulePath : IsNaming isModulePath := by
  intro path h
  simp only [isModulePath, Bool.and_eq_true, Bool.not_eq_true', List.isEmpty_eq_false_iff] at h
  obtain ⟨hne, hall⟩ := h
  rw [List.all_eq_true] at hall
  constructor
  · rintro rfl
    exact hne rfl
  · intro c hc
    rw [← List.takeWhile_append_dropWhile (p := (· == '.')) (l := path)] at hc
    by_cases hdot : c = '.'
    · subst hdot
      decide
    · have hbody : c ∈ path.dropWhile (· == '.') := by
        rcases List.mem_append.mp hc with hlead | hbody
        · exact absurd (by simpa using List.mem_takeWhile_imp hlead) hdot
        · exact hbody
      have hinside : (c == '.') = false := beq_false_of_ne hdot
      obtain ⟨piece, hpiece, hin⟩ := @exists_mem_splitAt (· == '.') c hinside _ hbody
      have hword := (all_isWordChar_of_isIdentifier (hall piece hpiece)).2 c hin
      rw [isPathChar, hword, Bool.true_or]

/-! ## Clauses -/

/-- A name of the given kind, with an alias if it has one. -/
structure Clause (isName : List Char → Bool) where
  name : List Char
  alias? : Option (List Char) := none
  isName_name : isName name = true := by decide
  isIdentifier_alias : ∀ a ∈ alias?, isIdentifier a = true := by decide

/-- The word between a name and its alias. -/
def asWord : List Char := ['a', 's']

namespace Clause

variable {isName : List Char → Bool}

/-- The alias of a clause and the word before it. -/
def tail (c : Clause isName) : List Char :=
  match c.alias? with
  | some a => " as ".toList ++ a
  | none => []

/-- The clause as it is written. -/
def text (c : Clause isName) : List Char :=
  c.name ++ c.tail

end Clause

/-- A clause in a list, with blanks before it and behind it where it is read, or without. -/
structure Spot (isName : List Char → Bool) where
  clause : Clause isName
  before : Bool
  behind : Bool

/-- The clause between blanks. -/
def Clause.between {isName : List Char → Bool} (c : Clause isName) (lead trail : List Char) :
    Spot isName :=
  ⟨c, !lead.isEmpty, !trail.isEmpty⟩

/-- Is the name not taken for the word before an alias? It is if it is that word and has blanks on
both sides. -/
def Spot.isClear {isName : List Char → Bool} (s : Spot isName) : Bool :=
  s.clause.name != asWord || !s.before || s.clause.alias?.isNone && !s.behind

/-- The names that are read in a list. -/
def namesRead {isName : List Char → Bool} (spots : List (Spot isName)) : List (List Char) :=
  (spots.filter Spot.isClear).map (·.clause.name)

theorem namesRead_append {isName : List Char → Bool} (spots more : List (Spot isName)) :
    namesRead (spots ++ more) = namesRead spots ++ namesRead more := by
  rw [namesRead, List.filter_append, List.map_append]
  rfl

/-! ## Reading a clause -/

theorem space_not_mem_of_isPathChar {name : List Char} (h : ∀ c ∈ name, isPathChar c = true) :
    ' ' ∉ name := by
  intro hspace
  exact absurd (h ' ' hspace) (by decide)

/-- The first word of a text is the only one that can be found at its start. -/
theorem eq_asWord_of_prefix {name rest : List Char} (hname : ' ' ∉ name)
    (hrest : rest = [] ∨ ∃ more, rest = ' ' :: more)
    (h : asWord ++ [' '] <+: name ++ rest) : name = asWord ∧ rest ≠ [] := by
  obtain ⟨more, hmore⟩ := h
  rw [List.append_assoc, List.singleton_append] at hmore
  rcases hrest with rfl | ⟨other, rfl⟩
  · rw [List.append_nil] at hmore
    exact absurd (hmore ▸ List.mem_append_right _ (List.mem_cons_self ..)) hname
  · refine ⟨?_, List.cons_ne_nil _ _⟩
    have heq := congrArg (List.takeWhile (· != ' ')) hmore
    rw [takeWhile_append_cons (by decide) more, takeWhile_append_cons hname other] at heq
    exact heq.symm

/-- In the blanks before a clause no separator starts, if it does not start with the last one. -/
theorem breakOnFrom_blanks {lead : List Char} (hlead : ∀ c ∈ lead, c = ' ') {body : List Char}
    (hbody : lead ≠ [] → ¬ asWord ++ [' '] <+: body) : ∀ seen,
      breakOnFrom (' ' :: (asWord ++ [' '])) seen (lead ++ body) =
        breakOnFrom (' ' :: (asWord ++ [' '])) (lead.reverse ++ seen) body := by
  induction lead with
  | nil => exact fun _ => rfl
  | cons c lead ih =>
    intro seen
    obtain rfl := hlead c (List.mem_cons_self ..)
    have hnot : (' ' :: (asWord ++ [' '])).isPrefixOf (' ' :: (lead ++ body)) = false := by
      rw [Bool.eq_false_iff]
      intro hprefix
      have hword := (List.cons_prefix_cons.mp (List.isPrefixOf_iff_prefix.mp hprefix)).2
      cases lead with
      | nil => exact hbody (List.cons_ne_nil _ _) hword
      | cons c' lead =>
        -- the next character is a blank as well
        obtain rfl := hlead c' (by simp)
        exact absurd (List.cons_prefix_cons.mp hword).1 (by decide)
    have hrest := ih (fun c' hc' => hlead c' (List.mem_cons_of_mem _ hc'))
      (fun _ => hbody (List.cons_ne_nil _ _))
    rw [List.cons_append, breakOnFrom, hnot, if_neg Bool.false_ne_true, hrest, List.reverse_cons,
      List.append_assoc, List.singleton_append]

theorem breakOnFrom_spaces {blanks : List Char} (h : ∀ c ∈ blanks, c = ' ') (seen : List Char) :
    breakOnFrom (' ' :: (asWord ++ [' '])) seen blanks = none := by
  have hnil : blanks ≠ [] → ¬ asWord ++ [' '] <+: [] := fun _ => by decide
  have hblanks := breakOnFrom_blanks h hnil seen
  rw [List.append_nil] at hblanks
  rw [hblanks]
  rfl

theorem isBlank_of_mem_spaces {blanks : List Char} (h : ∀ c ∈ blanks, c = ' ') :
    ∀ c ∈ blanks, isBlank c = true := by
  intro c hc
  rw [h c hc]
  decide

theorem trim_of_isPathChar {name : List Char} (h : ∀ c ∈ name, isPathChar c = true) :
    trim name = name :=
  trim_eq_self (fun c hc => isBlank_eq_false_of_isPathChar (h c (List.mem_of_head? hc)))
    (fun c hc => isBlank_eq_false_of_isPathChar (h c (List.mem_of_getLast? hc)))

theorem trim_spaces {blanks : List Char} (h : ∀ c ∈ blanks, c = ' ') : trim blanks = [] := by
  have htrim := trim_surround (isBlank_of_mem_spaces h) (List.forall_mem_nil _) []
  rwa [List.append_nil, List.append_nil] at htrim

section

variable {isName : List Char → Bool}

theorem Clause.isClear_between_iff (c : Clause isName) (lead trail : List Char) :
    (c.between lead trail).isClear = true ↔
      (c.name = asWord → lead = [] ∨ c.alias? = none ∧ trail = []) := by
  simp only [Spot.isClear, between, Bool.or_eq_true, bne_iff_ne, Bool.and_eq_true, Bool.not_not,
    List.isEmpty_iff, Option.isNone_iff_eq_none, or_assoc]
  exact Decidable.imp_iff_not_or.symm

/-- What is behind the name of a clause starts with a blank, if there is anything. -/
theorem Clause.tail_append (c : Clause isName) {trail : List Char} (h : ∀ b ∈ trail, b = ' ') :
    c.alias? = none ∧ trail = [] ∧ c.tail ++ trail = [] ∨
      ∃ more, c.tail ++ trail = ' ' :: more := by
  unfold tail
  cases halias : c.alias? with
  | some a => exact .inr ⟨_, rfl⟩
  | none =>
    cases trail with
    | nil => exact .inl ⟨rfl, rfl, rfl⟩
    | cons b trail =>
      obtain rfl := h b (List.mem_cons_self ..)
      exact .inr ⟨trail, rfl⟩

/-- The name of a clause is what stands before its alias. -/
theorem Clause.beforeAlias_of_isClear (hnaming : IsNaming isName) (c : Clause isName)
    {lead trail : List Char} (hlead : ∀ b ∈ lead, b = ' ') (htrail : ∀ b ∈ trail, b = ' ')
    (hclear : (c.between lead trail).isClear = true) :
    beforeAlias (lead ++ c.text ++ trail) = c.name := by
  have hpath := (hnaming c.name c.isName_name).2
  have hname := space_not_mem_of_isPathChar hpath
  have hbody : lead ≠ [] → ¬ asWord ++ [' '] <+: c.name ++ (c.tail ++ trail) := by
    intro hne hprefix
    have hrest := (c.tail_append htrail).imp_left fun h => h.2.2
    obtain ⟨has, htail⟩ := eq_asWord_of_prefix hname hrest hprefix
    obtain ⟨hnone, rfl⟩ := ((c.isClear_between_iff lead trail).mp hclear has).resolve_left hne
    exact htail (by rw [tail, hnone, List.append_nil])
  have htext : lead ++ c.text ++ trail = lead ++ (c.name ++ (c.tail ++ trail)) := by
    rw [text, List.append_assoc, List.append_assoc]
  have hread : breakOn " as ".toList (lead ++ c.text ++ trail) =
      breakOnFrom (' ' :: (asWord ++ [' '])) (c.name.reverse ++ lead.reverse)
        (c.tail ++ trail) := by
    show breakOnFrom (' ' :: (asWord ++ [' '])) [] _ = _
    rw [htext, breakOnFrom_blanks hlead hbody, breakOnFrom_append hname, List.append_nil]
  unfold beforeAlias upTo
  rw [hread]
  cases halias : c.alias? with
  | some a =>
    -- the cut is right after the name
    have htail : c.tail ++ trail = ' ' :: (asWord ++ [' ']) ++ (a ++ trail) := by
      rw [tail, halias]
      rfl
    have hcut : breakOnFrom (' ' :: (asWord ++ [' '])) (c.name.reverse ++ lead.reverse)
        (c.tail ++ trail) = some (lead ++ c.name, a ++ trail) := by
      rw [htail, breakOnFrom_separator, List.reverse_append, List.reverse_reverse,
        List.reverse_reverse]
    rw [hcut]
    have htrim := trim_surround (isBlank_of_mem_spaces hlead) (List.forall_mem_nil _) c.name
    rw [List.append_nil] at htrim
    exact htrim.trans (trim_of_isPathChar hpath)
  | none =>
    -- nothing is cut off
    have htail : c.tail = [] := by rw [tail, halias]
    have hcut : breakOnFrom (' ' :: (asWord ++ [' '])) (c.name.reverse ++ lead.reverse)
        (c.tail ++ trail) = none := by
      rw [htail, List.nil_append, breakOnFrom_spaces htrail]
    rw [hcut, text, htail, List.append_nil]
    exact (trim_surround (isBlank_of_mem_spaces hlead) (isBlank_of_mem_spaces htrail) c.name).trans
      (trim_of_isPathChar hpath)

/-- A name that is taken for the word before an alias is lost. -/
theorem Clause.beforeAlias_of_not_isClear (c : Clause isName) {lead trail : List Char}
    (hlead : ∀ b ∈ lead, b = ' ') (htrail : ∀ b ∈ trail, b = ' ')
    (hclear : (c.between lead trail).isClear = false) :
    beforeAlias (lead ++ c.text ++ trail) = [] := by
  have hlost : ¬ (c.name = asWord → lead = [] ∨ c.alias? = none ∧ trail = []) := by
    rw [← c.isClear_between_iff lead trail, hclear]
    exact Bool.false_ne_true
  obtain ⟨has, hneither⟩ := Classical.not_imp.mp hlost
  obtain ⟨hne, hrest⟩ := not_or.mp hneither
  -- the last blank before the word and the first one behind it make the separator
  obtain ⟨front, b, rfl⟩ := (List.eq_nil_or_concat lead).resolve_left hne
  rw [List.concat_eq_append] at hlead ⊢
  obtain rfl := hlead b (List.mem_append_right _ (List.mem_singleton_self b))
  obtain ⟨more, hmore⟩ := (c.tail_append htrail).resolve_left fun h => hrest ⟨h.1, h.2.1⟩
  have hfront : ∀ b ∈ front, b = ' ' := fun b hb => hlead b (List.mem_append_left _ hb)
  have htext : front ++ [' '] ++ c.text ++ trail =
      front ++ (' ' :: (asWord ++ [' ']) ++ more) := by
    simp only [text, has, List.append_assoc, hmore, List.cons_append, List.nil_append]
  have hread : breakOn " as ".toList (front ++ [' '] ++ c.text ++ trail) = some (front, more) := by
    have hbody : front ≠ [] → ¬ asWord ++ [' '] <+: ' ' :: (asWord ++ [' ']) ++ more :=
      fun _ h => absurd (List.cons_prefix_cons.mp h).1 (by decide)
    show breakOnFrom (' ' :: (asWord ++ [' '])) [] _ = _
    rw [htext, breakOnFrom_blanks hfront hbody, breakOnFrom_separator, List.append_nil,
      List.reverse_reverse]
  unfold beforeAlias upTo
  rw [hread]
  exact trim_spaces hfront

/-! ## Lists of clauses -/

/-- The text lists the clauses, with blanks around them and commas between them. A comma may follow
the last one. -/
inductive Lists : List (Spot isName) → List Char → Prop
  | blank {text : List Char} (h : ∀ b ∈ text, b = ' ') : Lists [] text
  | last {c : Clause isName} {lead trail : List Char} (hlead : ∀ b ∈ lead, b = ' ')
      (htrail : ∀ b ∈ trail, b = ' ') : Lists [c.between lead trail] (lead ++ c.text ++ trail)
  | cons {c : Clause isName} {lead : List Char} {spots : List (Spot isName)} {text : List Char}
      (hlead : ∀ b ∈ lead, b = ' ') (hrest : Lists spots text) :
      Lists (c.between lead [] :: spots) (lead ++ c.text ++ ',' :: text)

theorem Clause.isPathChar_or_space_of_mem_text (hnaming : IsNaming isName) (c : Clause isName) :
    ∀ b ∈ c.text, isPathChar b = true ∨ b = ' ' := by
  intro b hb
  rcases List.mem_append.mp hb with hname | htail
  · exact .inl ((hnaming c.name c.isName_name).2 b hname)
  · unfold tail at htail
    split at htail
    · next a halias =>
      have hidentifier := c.isIdentifier_alias a halias
      rcases List.mem_append.mp htail with hword | ha
      · have hall : ∀ b ∈ " as ".toList, (isPathChar b || b == ' ') = true :=
          List.all_eq_true.mp (by decide)
        simpa using hall b hword
      · exact .inl ((isNaming_isIdentifier a hidentifier).2 b ha)
    · exact absurd htail List.not_mem_nil

theorem not_comma_of_blanks {blanks : List Char} (h : ∀ b ∈ blanks, b = ' ') :
    ∀ b ∈ blanks, (b == ',') = false := by
  intro b hb
  rw [h b hb]
  decide

theorem Clause.not_comma_of_mem (hnaming : IsNaming isName) (c : Clause isName)
    {lead trail : List Char} (hlead : ∀ b ∈ lead, b = ' ') (htrail : ∀ b ∈ trail, b = ' ') :
    ∀ b ∈ lead ++ c.text ++ trail, (b == ',') = false := by
  intro b hb
  rcases List.mem_append.mp hb with hfront | hback
  · rcases List.mem_append.mp hfront with hblank | htext
    · exact not_comma_of_blanks hlead b hblank
    · rw [beq_eq_false_iff_ne]
      rintro rfl
      have hcomma := c.isPathChar_or_space_of_mem_text hnaming ',' htext
      exact absurd hcomma (by decide)
  · exact not_comma_of_blanks htrail b hback

/-- Of a piece between commas the name is read, unless it is lost. -/
theorem Clause.filter_beforeAlias (hnaming : IsNaming isName) (c : Clause isName)
    {lead trail : List Char} (hlead : ∀ b ∈ lead, b = ' ') (htrail : ∀ b ∈ trail, b = ' ') :
    [beforeAlias (lead ++ c.text ++ trail)].filter isName = namesRead [c.between lead trail] := by
  cases hclear : (c.between lead trail).isClear with
  | true =>
    rw [c.beforeAlias_of_isClear hnaming hlead htrail hclear,
      List.filter_cons_of_pos c.isName_name, namesRead, List.filter_cons_of_pos hclear]
    rfl
  | false =>
    have hnot : isName [] = false := isName_nil hnaming
    rw [c.beforeAlias_of_not_isClear hlead htrail hclear, namesRead,
      List.filter_cons_of_neg (by rw [hnot]; exact Bool.false_ne_true),
      List.filter_cons_of_neg (by rw [hclear]; exact Bool.false_ne_true)]
    rfl

/-- What the scanner reads in a list. -/
theorem Lists.map_beforeAlias (hnaming : IsNaming isName) {spots : List (Spot isName)}
    {text : List Char} (h : Lists spots text) :
    ((splitAt (· == ',') text).map beforeAlias).filter isName = namesRead spots := by
  rw [splitAt_eq_splitOnP]
  induction h with
  | @blank text hblank =>
    -- a text of blanks is one piece, and no name
    have hread : beforeAlias text = [] := by
      have hnone : breakOn " as ".toList text = none := breakOnFrom_spaces hblank []
      unfold beforeAlias upTo
      rw [hnone]
      exact trim_spaces hblank
    rw [List.splitOnP_eq_singleton (not_comma_of_blanks hblank), List.map_singleton, hread,
      List.filter_cons_of_neg (by rw [isName_nil hnaming]; exact Bool.false_ne_true)]
    rfl
  | @last c lead trail hlead htrail =>
    rw [List.splitOnP_eq_singleton (c.not_comma_of_mem hnaming hlead htrail), List.map_singleton,
      c.filter_beforeAlias hnaming hlead htrail]
  | @cons c lead spots text hlead _ ih =>
    have hpiece := c.not_comma_of_mem hnaming hlead (List.forall_mem_nil _)
    have hread := c.filter_beforeAlias hnaming hlead (List.forall_mem_nil _)
    rw [List.append_nil] at hpiece hread
    rw [List.splitOnP_append_cons_of_forall_mem hpiece ',' (by decide), List.map_cons,
      ← List.singleton_append, List.filter_append, hread, ih, ← namesRead_append]
    rfl

/-- Clauses on one line. -/
def joined : Clause isName → List (Clause isName) → List Char
  | c, [] => c.text
  | c, next :: rest => c.text ++ ", ".toList ++ joined next rest

/-- Where the clauses on one line are read, with blanks around the line or without. -/
def joinedSpots (before behind : Bool) : Clause isName → List (Clause isName) → List (Spot isName)
  | c, [] => [⟨c, before, behind⟩]
  | c, next :: rest => ⟨c, before, false⟩ :: joinedSpots true behind next rest

/-- A row of a list that goes on over several lines: clauses, and a comma after them. -/
def rowText (comma : Bool) : List (Clause isName) → List Char
  | [] => []
  | first :: rest => joined first rest ++ if comma then [','] else []

/-- Where the clauses of a row are read. -/
def rowSpots (before behind : Bool) : List (Clause isName) → List (Spot isName)
  | [] => []
  | first :: rest => joinedSpots before behind first rest

/-- A list that ends with its row. -/
theorem lists_joined {trail : List Char} (htrail : ∀ b ∈ trail, b = ' ')
    (rest : List (Clause isName)) :
    ∀ (first : Clause isName) {lead : List Char}, (∀ b ∈ lead, b = ' ') →
      Lists (joinedSpots (!lead.isEmpty) (!trail.isEmpty) first rest)
        (lead ++ joined first rest ++ trail) := by
  induction rest with
  | nil => exact fun _ _ hlead => .last hlead htrail
  | cons next rest ih =>
    intro first lead hlead
    have hspace : ∀ b ∈ [' '], b = ' ' := fun b hb => List.mem_singleton.mp hb
    have hwhole := Lists.cons (c := first) hlead (ih next hspace)
    simpa [joined, joinedSpots, Clause.between] using hwhole

/-- A list that goes on after its row, or ends there with a comma. -/
theorem lists_joined_comma {spots : List (Spot isName)} {text : List Char} (h : Lists spots text)
    (rest : List (Clause isName)) :
    ∀ (first : Clause isName) {lead : List Char}, (∀ b ∈ lead, b = ' ') →
      Lists (joinedSpots (!lead.isEmpty) false first rest ++ spots)
        (lead ++ joined first rest ++ ',' :: text) := by
  induction rest with
  | nil => exact fun _ _ hlead => .cons hlead h
  | cons next rest ih =>
    intro first lead hlead
    have hspace : ∀ b ∈ [' '], b = ' ' := fun b hb => List.mem_singleton.mp hb
    have hwhole := Lists.cons (c := first) hlead (ih next hspace)
    simpa [joined, joinedSpots, Clause.between] using hwhole

/-- A row before the rest of a list, which is blank if the row has no comma. -/
theorem lists_rowText {comma : Bool} (row : List (Clause isName)) {spots : List (Spot isName)}
    {text : List Char} (hcomma : comma = false → spots = [])
    (h : ∀ lead : List Char, (∀ b ∈ lead, b = ' ') → Lists spots (lead ++ text)) {lead : List Char}
    (hlead : ∀ b ∈ lead, b = ' ') :
    Lists (rowSpots (!lead.isEmpty) (!comma && !text.isEmpty) row ++ spots)
      (lead ++ rowText comma row ++ text) := by
  cases row with
  | nil =>
    -- the blanks are before what follows
    rw [rowText, List.append_nil]
    exact h lead hlead
  | cons first rest =>
    have hmore := h [] (List.forall_mem_nil _)
    rw [List.nil_append] at hmore
    cases comma with
    | true =>
      have hlists := lists_joined_comma hmore rest first hlead
      simpa [rowText, rowSpots] using hlists
    | false =>
      -- what follows are blanks behind the last clause
      obtain rfl := hcomma rfl
      have hblank : ∀ b ∈ text, b = ' ' := by
        cases hmore with
        | blank hblank => exact hblank
      have hlists := lists_joined hblank rest first hlead
      simpa [rowText, rowSpots] using hlists

/-- The rows of a list. A row has a comma if clauses follow, or if the list ends with one. -/
def rowTexts (comma : Bool) : List (List (Clause isName)) → List (List Char)
  | [] => []
  | row :: rows => rowText (comma || rows.any (!·.isEmpty)) row :: rowTexts comma rows

/-- Where the clauses of rows are read that are put on one line: a blank stands for every break. -/
def rowsSpots (before comma : Bool) : List (List (Clause isName)) → List (Spot isName)
  | [] => []
  | row :: rows =>
    rowSpots before (!(comma || rows.any (!·.isEmpty)) && !rows.isEmpty) row ++
      rowsSpots true comma rows

theorem rowsSpots_eq_nil_of_any (before comma : Bool) {rows : List (List (Clause isName))}
    (h : rows.any (!·.isEmpty) = false) : rowsSpots before comma rows = [] := by
  induction rows generalizing before with
  | nil => rfl
  | cons row rows ih =>
    rw [List.any_cons, Bool.or_eq_false_iff, Bool.not_eq_false', List.isEmpty_iff] at h
    obtain ⟨rfl, hrows⟩ := h
    rw [rowsSpots, ih true hrows]
    rfl

/-- The first row of a list, read before the others. -/
theorem lists_rowText_rows {comma : Bool} (row : List (Clause isName))
    {rows : List (List (Clause isName))}
    (h : ∀ {lead : List Char}, (∀ b ∈ lead, b = ' ') →
      Lists (rowsSpots true comma rows) (lead ++ (rowTexts comma rows).flatMap (' ' :: ·)))
    {lead : List Char} (hlead : ∀ b ∈ lead, b = ' ') :
    Lists (rowsSpots (!lead.isEmpty) comma (row :: rows))
      (lead ++ rowText (comma || rows.any (!·.isEmpty)) row ++
        (rowTexts comma rows).flatMap (' ' :: ·)) := by
  have hempty : ((rowTexts comma rows).flatMap (' ' :: ·)).isEmpty = rows.isEmpty := by
    cases rows <;> rfl
  have hcomma : (comma || rows.any (!·.isEmpty)) = false → rowsSpots true comma rows = [] :=
    fun hc => rowsSpots_eq_nil_of_any true comma (Bool.or_eq_false_iff.mp hc).2
  have hlists := lists_rowText row hcomma (fun _ => h) hlead
  rwa [hempty] at hlists

/-- Rows that are read one after the other, with a blank before each, are one list. -/
theorem lists_rows (comma : Bool) (rows : List (List (Clause isName))) :
    ∀ {lead : List Char}, (∀ b ∈ lead, b = ' ') →
      Lists (rowsSpots true comma rows) (lead ++ (rowTexts comma rows).flatMap (' ' :: ·)) := by
  induction rows with
  | nil =>
    intro lead hlead
    rw [rowTexts, List.flatMap_nil, List.append_nil]
    exact .blank hlead
  | cons row rows ih =>
    intro lead hlead
    have hblank : ∀ b ∈ lead ++ [' '], b = ' ' := by
      intro b hb
      exact (List.mem_append.mp hb).elim (hlead b) List.mem_singleton.mp
    -- the blank for the break is before the row, whatever is before the break
    have hbefore : (!(lead ++ [' ']).isEmpty) = true := by simp
    have hlists := lists_rowText_rows row ih hblank
    rw [hbefore] at hlists
    rw [rowTexts, List.flatMap_cons]
    simpa using hlists

/-! ## What is read -/

theorem map_clause_joinedSpots (behind : Bool) (rest : List (Clause isName)) :
    ∀ (before : Bool) (first : Clause isName),
      (joinedSpots before behind first rest).map Spot.clause = first :: rest := by
  induction rest with
  | nil => exact fun _ _ => rfl
  | cons next rest ih =>
    intro before first
    rw [joinedSpots, List.map_cons, ih]

theorem map_clause_rowsSpots (comma : Bool) (rows : List (List (Clause isName))) :
    ∀ before : Bool, (rowsSpots before comma rows).map Spot.clause = rows.flatten := by
  induction rows with
  | nil => exact fun _ => rfl
  | cons row rows ih =>
    intro before
    rw [rowsSpots, List.map_append, ih, List.flatten_cons]
    cases row with
    | nil => rfl
    | cons first rest => rw [rowSpots, map_clause_joinedSpots]

theorem namesRead_sublist (spots : List (Spot isName)) :
    (namesRead spots).Sublist ((spots.map Spot.clause).map Clause.name) := by
  rw [List.map_map]
  exact List.filter_sublist.map _

/-- All names are read exactly if none is taken for the word before an alias. -/
theorem namesRead_eq_iff (spots : List (Spot isName)) :
    namesRead spots = (spots.map Spot.clause).map Clause.name ↔ ∀ s ∈ spots, s.isClear = true := by
  rw [← List.length_filter_eq_length_iff, namesRead, List.map_map]
  constructor
  · intro h
    have hlength := congrArg List.length h
    rwa [List.length_map, List.length_map] at hlength
  · intro h
    rw [List.filter_sublist.eq_of_length h]
    rfl

end

end DepGraph.Python

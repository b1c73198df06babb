import DepGraph.Text.Blank
import DepGraph.Text.Letter
import DepGraph.Text.Pieces
import Mathlib.Data.List.TakeWhile

/-!
# Pieces of a text and the blanks around them

What readers of texts rely on: where a text is cut, what is left of a piece without the blanks
around it, and that names hold no blanks.

- `splitAt_eq_splitOnP`: the pieces between separators are those of the library for lists.
- `lines_append_newline`, `lines_of_not_mem`: the first line of a text, and its only one.
- `trim_surround`, `trim_eq_self`, `trim_prefix_trim`: what `trim` takes away.
- `exists_splitAt_append`: what changes within one piece changes no other.
- `breakOn_append`: a cut at a separator that starts with a character the text before it lacks.
- `breakOn_append_of_eq_some`, `breakOn_append_of_eq_none`: a cut in the start of a text, and behind
  it.
- `isWordChar_eq_false_of_isBlank`: no blank is part of a name.
-/

namespace DepGraph.Text

/-! ## Pieces between separators -/

/-- Cutting a text into pieces, as the library for lists does it. -/
theorem splitAtFrom_eq {α : Type} (isEnd : α → Bool) (piece : List α) (pieces : List (List α))
    (text : List α) :
    splitAtFrom isEnd piece pieces text =
      pieces.reverse ++ List.splitOnPPrepend isEnd text piece := by
  induction text generalizing piece pieces with
  | nil => simp [splitAtFrom]
  | cons c text ih =>
    rw [splitAtFrom, List.splitOnPPrepend_cons_eq_if]
    split
    · rw [ih, List.reverse_cons, List.append_assoc]
      rfl
    · rw [ih]

theorem splitAt_eq_splitOnP {α : Type} (isEnd : α → Bool) (text : List α) :
    splitAt isEnd text = List.splitOnP isEnd text := by
  rw [splitAt, splitAtFrom_eq]
  rfl

/-- A character that separates nothing is in one of the pieces. -/
theorem exists_mem_splitAt {isEnd : Char → Bool} {c : Char} (hc : isEnd c = false)
    {text : List Char} (h : c ∈ text) : ∃ piece ∈ splitAt isEnd text, c ∈ piece := by
  rw [splitAt_eq_splitOnP]
  induction text with
  | nil => exact absurd h List.not_mem_nil
  | cons a text ih =>
    rw [List.splitOnP_cons_eq_if_modifyHead]
    split
    · next ha =>
      have hmem : c ∈ text := by
        rcases List.mem_cons.mp h with rfl | hmem
        · exact absurd ha (by rw [hc]; exact Bool.false_ne_true)
        · exact hmem
      obtain ⟨piece, hpiece, hin⟩ := ih hmem
      exact ⟨piece, List.mem_cons_of_mem _ hpiece, hin⟩
    · have hne := List.splitOnP_ne_nil isEnd text
      obtain ⟨first, others, hpieces⟩ := List.exists_cons_of_ne_nil hne
      rw [hpieces] at ih ⊢
      rcases List.mem_cons.mp h with rfl | hmem
      · exact ⟨c :: first, List.mem_cons_self .., List.mem_cons_self ..⟩
      · obtain ⟨piece, hpiece, hin⟩ := ih hmem
        rcases List.mem_cons.mp hpiece with rfl | hother
        · exact ⟨a :: piece, List.mem_cons_self .., List.mem_cons_of_mem a hin⟩
        · exact ⟨piece, List.mem_cons_of_mem _ hother, hin⟩

/-- What stands between two texts is in one of the pieces, unless it is cut itself. -/
theorem exists_splitAt_append (isEnd : Char → Bool) (text rest : List Char) :
    ∃ front first last back, ∀ gap : List Char, (∀ c ∈ gap, isEnd c = false) →
      splitAt isEnd (text ++ gap ++ rest) = front ++ (first ++ gap ++ last) :: back := by
  induction text with
  | nil =>
    obtain ⟨last, back, hback⟩ : ∃ last back, ∀ gap : List Char, (∀ c ∈ gap, isEnd c = false) →
        splitAt isEnd (gap ++ rest) = (gap ++ last) :: back := by
      simp only [splitAt_eq_splitOnP]
      obtain ⟨last, back, hrest⟩ := List.exists_cons_of_ne_nil (List.splitOnP_ne_nil isEnd rest)
      refine ⟨last, back, fun gap => ?_⟩
      induction gap with
      | nil => exact fun _ => hrest
      | cons c gap ih =>
        intro hgap
        have hc := hgap c (List.mem_cons_self ..)
        rw [List.cons_append, List.splitOnP_cons_eq_if_modifyHead, hc,
          if_neg Bool.false_ne_true, ih fun c' hc' => hgap c' (List.mem_cons_of_mem c hc')]
        rfl
    exact ⟨[], [], last, back, hback⟩
  | cons c text ih =>
    obtain ⟨front, first, last, back, hsplit⟩ := ih
    simp only [splitAt_eq_splitOnP, List.cons_append,
      List.splitOnP_cons_eq_if_modifyHead] at hsplit ⊢
    by_cases hc : isEnd c = true
    · refine ⟨[] :: front, first, last, back, fun gap hgap => ?_⟩
      rw [if_pos hc, hsplit gap hgap]
      rfl
    · cases front with
      | nil =>
        refine ⟨[], c :: first, last, back, fun gap hgap => ?_⟩
        rw [if_neg hc, hsplit gap hgap]
        rfl
      | cons piece front =>
        refine ⟨(c :: piece) :: front, first, last, back, fun gap hgap => ?_⟩
        rw [if_neg hc, hsplit gap hgap]
        rfl

/-- What stands before the first separator. -/
theorem takeWhile_append_cons {c : Char} {piece : List Char} (h : c ∉ piece) (rest : List Char) :
    (piece ++ c :: rest).takeWhile (· != c) = piece := by
  have hkept : ∀ x ∈ piece, (x != c) = true := by
    intro x hx
    rw [bne_iff_ne]
    rintro rfl
    exact h hx
  rw [List.takeWhile_append_of_pos hkept, List.takeWhile_cons_of_neg (by simp), List.append_nil]

/-! ## Lines -/

/-- A line without the carriage return at its end. -/
def withoutReturn (line : List Char) : List Char :=
  (dropReturn line.reverse).reverse

/-- At most a carriage return is taken away. -/
theorem eq_withoutReturn_or (line : List Char) :
    line = withoutReturn line ∨ line = withoutReturn line ++ ['\r'] := by
  unfold withoutReturn dropReturn
  split
  · next rest hreverse =>
    right
    rw [← List.reverse_cons, ← hreverse, List.reverse_reverse]
  · left
    rw [List.reverse_reverse]

theorem linesFrom_eq (text : List Char) : ∀ (line : List Char) (done : List (List Char)),
    linesFrom line done text = done.reverse ++ linesFrom line [] text := by
  induction text with
  | nil =>
    intro line done
    unfold linesFrom
    split
    · rw [List.reverse_nil, List.append_nil]
    · rw [List.reverse_cons, List.reverse_singleton]
  | cons c rest ih =>
    intro line done
    unfold linesFrom
    split
    · rw [ih [] (_ :: done), ih [] [_], List.reverse_cons, List.reverse_singleton,
        List.append_assoc]
    · rw [ih]

theorem linesFrom_append {text : List Char} (h : '\n' ∉ text) (rest : List Char) :
    ∀ seen, linesFrom seen [] (text ++ rest) = linesFrom (text.reverse ++ seen) [] rest := by
  induction text with
  | nil => exact fun _ => rfl
  | cons c text ih =>
    intro seen
    have hc : (c == '\n') = false := beq_false_of_ne (List.ne_of_not_mem_cons h).symm
    rw [List.cons_append, linesFrom, hc, if_neg Bool.false_ne_true,
      ih (List.not_mem_of_not_mem_cons h), List.reverse_cons, List.append_assoc,
      List.singleton_append]

/-- The first line of a text with a line feed. -/
theorem lines_append_newline {line : List Char} (h : '\n' ∉ line) (rest : List Char) :
    lines (line ++ '\n' :: rest) = withoutReturn line :: lines rest := by
  unfold lines
  rw [linesFrom_append h, List.append_nil, linesFrom, if_pos (by decide), linesFrom_eq]
  rfl

/-- A text without line feeds is one line, or none. -/
theorem lines_of_not_mem {line : List Char} (h : '\n' ∉ line) :
    lines line = if line.isEmpty then [] else [line] := by
  have hread := linesFrom_append h [] []
  rw [List.append_nil, List.append_nil] at hread
  unfold lines
  rw [hread, linesFrom, List.isEmpty_reverse, List.reverse_reverse]
  split <;> rfl

/-- A text is its first line alone, or that line, a line feed and other lines. -/
theorem not_mem_or_eq_append_newline (text : List Char) :
    '\n' ∉ text ∨ ∃ line rest, text = line ++ '\n' :: rest ∧ '\n' ∉ line := by
  by_cases h : '\n' ∈ text
  · exact .inr (List.eq_append_cons_of_mem h)
  · exact .inl h

/-! ## Blanks -/

theorem trimEnd_append {trail : List Char} (htrail : ∀ c ∈ trail, isBlank c = true)
    (text : List Char) : trimEnd (text ++ trail) = trimEnd text := by
  unfold trimEnd
  rw [List.reverse_append,
    List.dropWhile_append_of_pos fun c hc => htrail c (List.mem_reverse.mp hc)]

theorem trim_surround {lead trail : List Char} (hlead : ∀ c ∈ lead, isBlank c = true)
    (htrail : ∀ c ∈ trail, isBlank c = true) (text : List Char) :
    trim (lead ++ text ++ trail) = trim text := by
  unfold trim
  rw [List.append_assoc, List.dropWhile_append_of_pos hlead, List.dropWhile_append]
  split
  · next hempty =>
    -- of a text of blanks nothing is left, at whichever end one starts
    rw [List.isEmpty_iff.mp hempty, List.dropWhile_eq_nil_iff.mpr htrail]
  · exact trimEnd_append htrail _

theorem trim_eq_self {text : List Char} (hfirst : ∀ c, text.head? = some c → isBlank c = false)
    (hlast : ∀ c, text.getLast? = some c → isBlank c = false) : trim text = text := by
  have hdrop : ∀ l : List Char, (∀ c, l.head? = some c → isBlank c = false) →
      l.dropWhile isBlank = l := by
    intro l hl
    cases l with
    | nil => rfl
    | cons c rest => exact List.dropWhile_cons_of_neg (by rw [hl c rfl]; exact Bool.false_ne_true)
  unfold trim trimEnd
  rw [hdrop text hfirst, hdrop text.reverse (by rwa [List.head?_reverse]), List.reverse_reverse]

theorem trimEnd_prefix_self (text : List Char) : trimEnd text <+: text := by
  have hsuffix := List.dropWhile_suffix (l := text.reverse) isBlank
  rw [← List.reverse_reverse text]
  exact List.reverse_prefix.mpr (by rwa [List.reverse_reverse])

theorem trimEnd_prefix_trimEnd_append (text rest : List Char) :
    trimEnd text <+: trimEnd (text ++ rest) := by
  by_cases hblank : ∀ c ∈ rest, isBlank c = true
  · exact ⟨[], (List.append_nil _).trans (trimEnd_append hblank text).symm⟩
  · have hne : ¬ (rest.reverse.dropWhile isBlank).isEmpty = true := by
      rw [List.isEmpty_iff, List.dropWhile_eq_nil_iff]
      exact fun h => hblank fun c hc => h c (List.mem_reverse.mpr hc)
    have hkept : trimEnd (text ++ rest) = text ++ trimEnd rest := by
      unfold trimEnd
      rw [List.reverse_append, List.dropWhile_append, if_neg hne, List.reverse_append,
        List.reverse_reverse]
    rw [hkept]
    exact (trimEnd_prefix_self text).trans (List.prefix_append text _)

/-- More text after a text changes nothing of what is left of it. -/
theorem trim_prefix_trim {first text : List Char} (h : first <+: text) :
    trim first <+: trim text := by
  obtain ⟨rest, rfl⟩ := h
  unfold trim
  rw [List.dropWhile_append]
  split
  · next hempty =>
    rw [List.isEmpty_iff.mp hempty]
    exact List.nil_prefix
  · exact trimEnd_prefix_trimEnd_append _ rest

/-- Only blanks are taken away. -/
theorem exists_eq_surround (text : List Char) : ∃ lead trail,
    (∀ c ∈ lead, isBlank c = true) ∧ (∀ c ∈ trail, isBlank c = true) ∧
      text = lead ++ trim text ++ trail := by
  refine ⟨text.takeWhile isBlank, ((text.dropWhile isBlank).reverse.takeWhile isBlank).reverse,
    fun c hc => List.mem_takeWhile_imp hc,
    fun c hc => List.mem_takeWhile_imp (List.mem_reverse.mp hc), ?_⟩
  unfold trim trimEnd
  rw [List.append_assoc, ← List.reverse_append, List.takeWhile_append_dropWhile,
    List.reverse_reverse, List.takeWhile_append_dropWhile]

theorem trim_subset (text : List Char) : trim text ⊆ text :=
  fun _ hc => (List.dropWhile_suffix isBlank).subset ((trimEnd_prefix_self _).subset hc)

/-! ## Cuts -/

theorem breakOnFrom_append {c : Char} {separator text : List Char} (h : c ∉ text)
    (rest : List Char) : ∀ seen, breakOnFrom (c :: separator) seen (text ++ rest) =
      breakOnFrom (c :: separator) (text.reverse ++ seen) rest := by
  induction text with
  | nil => exact fun _ => rfl
  | cons c' text ih =>
    intro seen
    have hnot : (c :: separator).isPrefixOf (c' :: (text ++ rest)) = false := by
      rw [List.isPrefixOf, beq_false_of_ne (List.ne_of_not_mem_cons h), Bool.false_and]
    rw [List.cons_append, breakOnFrom, hnot, if_neg Bool.false_ne_true,
      ih (List.not_mem_of_not_mem_cons h), List.reverse_cons, List.append_assoc,
      List.singleton_append]

theorem breakOnFrom_separator (c : Char) (separator seen rest : List Char) :
    breakOnFrom (c :: separator) seen (c :: separator ++ rest) = some (seen.reverse, rest) := by
  have hstarts : (c :: separator).isPrefixOf (c :: (separator ++ rest)) = true :=
    List.isPrefixOf_iff_prefix.mpr (List.prefix_append (c :: separator) rest)
  rw [List.cons_append, breakOnFrom, hstarts, if_pos rfl, ← List.cons_append, List.drop_left]

/-- A separator cannot start in a text that lacks its first character. -/
theorem breakOn_append {c : Char} {separator text : List Char} (h : c ∉ text) (rest : List Char) :
    breakOn (c :: separator) (text ++ c :: separator ++ rest) = some (text, rest) := by
  unfold breakOn
  rw [List.append_assoc, breakOnFrom_append h, List.append_nil, breakOnFrom_separator,
    List.reverse_reverse]

/-- A part that lacks a character ends before it. -/
theorem prefix_of_prefix_append {c : Char} {part : List Char} (hc : c ∉ part) (rest : List Char) :
    ∀ text, part <+: text ++ c :: rest → part <+: text := by
  induction part with
  | nil => exact fun _ _ => List.nil_prefix
  | cons a part ih =>
    intro text h
    cases text with
    | nil =>
      have ha : a = c := (List.cons_prefix_cons.mp h).1
      exact absurd (ha ▸ List.mem_cons_self ..) hc
    | cons b text =>
      obtain ⟨rfl, htail⟩ := List.cons_prefix_cons.mp h
      have hpart := ih (List.not_mem_of_not_mem_cons hc) text htail
      exact List.cons_prefix_cons.mpr ⟨rfl, hpart⟩

/-- A part that ends with a character, and has it nowhere else, ends no later than the first of
these characters behind a text. -/
theorem prefix_append_singleton {c : Char} {word : List Char} (hword : c ∉ word)
    {text rest : List Char} (h : word ++ [c] <+: text ++ c :: rest) :
    word ++ [c] <+: text ++ [c] := by
  have hin := prefix_of_prefix_append hword rest text ((List.prefix_append word [c]).trans h)
  obtain ⟨text, rfl⟩ := hin
  rw [List.append_assoc, List.prefix_append_right_inj] at h ⊢
  cases text with
  | nil => exact List.prefix_rfl
  | cons b text =>
    obtain rfl := (List.cons_prefix_cons.mp h).1
    exact List.prefix_append [c] _

theorem length_le_of_breakOnFrom {separator : List Char} :
    ∀ {text seen first rest : List Char}, breakOnFrom separator seen text = some (first, rest) →
      separator.length ≤ text.length := by
  intro text
  induction text with
  | nil => exact fun h => nomatch h
  | cons c text ih =>
    intro seen first rest h
    unfold breakOnFrom at h
    split at h
    · next hstart => exact (List.isPrefixOf_iff_prefix.mp hstart).length_le
    · exact Nat.le_succ_of_le (ih h)

theorem breakOnFrom_eq_map (separator text : List Char) : ∀ seen,
    breakOnFrom separator seen text =
      (breakOn separator text).map (Prod.map (seen.reverse ++ ·) id) := by
  unfold breakOn
  induction text with
  | nil => exact fun _ => rfl
  | cons c text ih =>
    intro seen
    unfold breakOnFrom
    split
    · simp
    · rw [ih (c :: seen), ih [c], Option.map_map, List.reverse_cons]
      congr 1
      funext piece
      exact Prod.ext (List.append_assoc seen.reverse [c] piece.1) rfl

/-- More text after a separator does not move the cut. -/
theorem breakOnFrom_append_of_eq_some {separator : List Char} (more : List Char) :
    ∀ {text seen first rest : List Char}, breakOnFrom separator seen text = some (first, rest) →
      breakOnFrom separator seen (text ++ more) = some (first, rest ++ more) := by
  intro text
  induction text with
  | nil => exact fun h => nomatch h
  | cons c text ih =>
    intro seen first rest h
    have hlength := length_le_of_breakOnFrom h
    have hprefix : c :: text <+: c :: (text ++ more) := List.prefix_append (c :: text) more
    unfold breakOnFrom at h
    rw [List.cons_append, breakOnFrom]
    split at h
    · next hstart =>
      rw [List.isPrefixOf_iff_prefix] at hstart
      obtain ⟨rfl, rfl⟩ := Prod.mk.inj (Option.some.inj h)
      rw [if_pos (List.isPrefixOf_iff_prefix.mpr (hstart.trans hprefix)), ← List.cons_append,
        List.drop_append_of_le_length hlength]
    · next hstart =>
      -- a separator that starts here and goes on into the rest would end behind that one
      rw [if_neg fun hlater => hstart ?_]
      · exact ih h
      · rw [List.isPrefixOf_iff_prefix] at hlater ⊢
        exact List.prefix_of_prefix_length_le hlater hprefix hlength

/-- A separator that ends with its first character, and has it nowhere else, starts before that
character or with it. -/
theorem breakOnFrom_append_of_eq_none {c : Char} {word : List Char} (hword : c ∉ word)
    (rest : List Char) : ∀ {text seen : List Char},
      breakOnFrom (c :: (word ++ [c])) seen (text ++ [c]) = none →
        breakOnFrom (c :: (word ++ [c])) seen (text ++ c :: rest) =
          breakOnFrom (c :: (word ++ [c])) (text.reverse ++ seen) (c :: rest) := by
  intro text
  induction text with
  | nil => exact fun _ => rfl
  | cons a text ih =>
    intro seen h
    rw [List.cons_append, breakOnFrom] at h
    split at h
    · cases h
    next hstart =>
    have hlater : ¬ (c :: (word ++ [c])).isPrefixOf (a :: (text ++ c :: rest)) = true := by
      intro hlater
      rw [List.isPrefixOf_iff_prefix, List.cons_prefix_cons] at hlater hstart
      exact hstart ⟨hlater.1, prefix_append_singleton hword hlater.2⟩
    rw [List.cons_append, breakOnFrom, if_neg hlater, ih h, List.reverse_cons, List.append_assoc,
      List.singleton_append]

theorem breakOn_append_of_eq_some {separator text first rest : List Char}
    (h : breakOn separator text = some (first, rest)) (more : List Char) :
    breakOn separator (text ++ more) = some (first, rest ++ more) :=
  breakOnFrom_append_of_eq_some more h

section

variable {c : Char} {word text : List Char} (hword : c ∉ word)
  (h : breakOn (c :: (word ++ [c])) (text ++ [c]) = none) (rest : List Char)

include hword h

theorem breakOn_append_of_eq_none :
    breakOn (c :: (word ++ [c])) (text ++ c :: rest) =
      (breakOn (c :: (word ++ [c])) (c :: rest)).map (Prod.map (text ++ ·) id) := by
  have hmap := breakOnFrom_eq_map (c :: (word ++ [c])) (c :: rest) text.reverse
  rw [List.reverse_reverse] at hmap
  rw [← hmap, breakOn, breakOnFrom_append_of_eq_none hword rest h, List.append_nil]

theorem upTo_append_of_eq_none :
    upTo (c :: (word ++ [c])) (text ++ c :: rest) =
      text ++ upTo (c :: (word ++ [c])) (c :: rest) := by
  unfold upTo
  rw [breakOn_append_of_eq_none hword h]
  cases breakOn (c :: (word ++ [c])) (c :: rest) <;> rfl

end

theorem upTo_prefix_self (separator text : List Char) : upTo separator text <+: text := by
  unfold upTo
  split
  · next first rest h =>
    have htext := append_of_breakOn h
    rw [List.append_assoc] at htext
    exact ⟨_, htext⟩
  · exact List.prefix_rfl

/-! ## Names -/

/-- The code points of the blanks. -/
def blankPoints : List Nat :=
  List.range' 9 5 ++ [0x20, 0x85, 0xa0, 0x1680] ++ List.range' 0x2000 11 ++
    [0x2028, 0x2029, 0x202f, 0x205f, 0x3000]

theorem toNat_mem_blankPoints {c : Char} (h : isBlank c = true) : c.toNat ∈ blankPoints := by
  simp only [isBlank, Bool.or_eq_true, Bool.and_eq_true, decide_eq_true_eq, beq_iff_eq] at h
  simp only [blankPoints, List.mem_append, List.mem_range'_1, List.mem_cons, List.not_mem_nil]
  omega

theorem isWordChar_eq_false_of_isBlank {c : Char} (h : isBlank c = true) :
    isWordChar c = false := by
  have hpoints : ∀ n ∈ blankPoints, isWordChar (Char.ofNat n) = false := by decide +kernel
  have hc := hpoints c.toNat (toNat_mem_blankPoints h)
  rwa [Char.ofNat_toNat] at hc

end DepGraph.Text

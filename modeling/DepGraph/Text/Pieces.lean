/-!
# Pieces of a text

Cutting a text at a separator, into lines, and counting the places where a text occurs. All of them
read the text once from the left and keep what they have read in an accumulator, so that long
texts need no stack.

* `append_of_breakOn`: a cut loses nothing but the separator.
* `breakOn_eq_none_iff`: there is no cut exactly where the separator does not occur.
-/

namespace DepGraph.Text

/-- Does `part` occur in the text? -/
def occursIn (part : List Char) : List Char → Bool
  | [] => part.isEmpty
  | c :: rest => if part.isPrefixOf (c :: rest) then true else occursIn part rest

/-! ## Cutting at the first separator -/

/-- `breakOn` with the characters read so far, last one first. -/
def breakOnFrom (separator : List Char) : List Char → List Char → Option (List Char × List Char)
  | _, [] => none
  | seen, c :: rest =>
    if separator.isPrefixOf (c :: rest) then
      some (seen.reverse, (c :: rest).drop separator.length)
    else breakOnFrom separator (c :: seen) rest

/-- The text before and after the first occurrence of a separator that is not empty. -/
def breakOn (separator text : List Char) : Option (List Char × List Char) :=
  breakOnFrom separator [] text

/-- The text before the first separator: the whole text if there is none. -/
def upTo (separator text : List Char) : List Char :=
  match breakOn separator text with
  | some (first, _) => first
  | none => text

theorem append_of_breakOnFrom {separator : List Char} :
    ∀ {seen text first rest : List Char},
      breakOnFrom separator seen text = some (first, rest) →
        first ++ separator ++ rest = seen.reverse ++ text
  | _, [], _, _, h => by simp [breakOnFrom] at h
  | seen, c :: text, first, rest, h => by
    unfold breakOnFrom at h
    split at h
    · next hpre =>
      obtain ⟨tail, htail⟩ := List.isPrefixOf_iff_prefix.mp hpre
      simp only [Option.some.injEq, Prod.mk.injEq] at h
      rw [← h.1, ← h.2, ← htail]
      simp
    · simpa using append_of_breakOnFrom h

theorem append_of_breakOn {separator text first rest : List Char}
    (h : breakOn separator text = some (first, rest)) : first ++ separator ++ rest = text := by
  simpa using append_of_breakOnFrom h

theorem breakOnFrom_eq_none_iff {separator : List Char} (hne : separator ≠ []) :
    ∀ {seen text : List Char},
      breakOnFrom separator seen text = none ↔ occursIn separator text = false
  | _, [] => by cases separator <;> simp_all [breakOnFrom, occursIn]
  | seen, c :: text => by
    unfold breakOnFrom occursIn
    split
    · simp
    · exact breakOnFrom_eq_none_iff hne

theorem breakOn_eq_none_iff {separator text : List Char} (hne : separator ≠ []) :
    breakOn separator text = none ↔ occursIn separator text = false :=
  breakOnFrom_eq_none_iff hne

/-! ## Lists of pieces -/

/-- `splitAt` with the piece and the pieces read so far, last ones first. -/
def splitAtFrom {α : Type} (isEnd : α → Bool) :
    List α → List (List α) → List α → List (List α)
  | piece, pieces, [] => (piece.reverse :: pieces).reverse
  | piece, pieces, c :: rest =>
    if isEnd c then splitAtFrom isEnd [] (piece.reverse :: pieces) rest
    else splitAtFrom isEnd (c :: piece) pieces rest

/-- The pieces between the members of a class; there is one more of them than of cuts. -/
def splitAt {α : Type} (isEnd : α → Bool) (text : List α) : List (List α) :=
  splitAtFrom isEnd [] [] text

/-- A line, read backwards, without the carriage return before its line feed. -/
def dropReturn : List Char → List Char
  | '\r' :: rest => rest
  | line => line

/-- `lines` with the line and the lines read so far, last ones first. -/
def linesFrom : List Char → List (List Char) → List Char → List (List Char)
  | line, done, [] => (if line.isEmpty then done else line.reverse :: done).reverse
  | line, done, c :: rest =>
    if c == '\n' then linesFrom [] ((dropReturn line).reverse :: done) rest
    else linesFrom (c :: line) done rest

/-- The lines of a text. A line ends at a line feed, which a carriage return may precede; text after
the last line feed is a line unless it is empty. -/
def lines (text : List Char) : List (List Char) :=
  linesFrom [] [] text

/-! ## Occurrences -/

/-- `countOf` with the number of characters that still belong to the last occurrence. -/
def countFrom (part : List Char) : Nat → Nat → List Char → Nat
  | _, count, [] => count
  | skip + 1, count, _ :: rest => countFrom part skip count rest
  | 0, count, c :: rest =>
    if part.isPrefixOf (c :: rest) then countFrom part (part.length - 1) (count + 1) rest
    else countFrom part 0 count rest

/-- How often a text that is not empty occurs, counted from the left without overlaps. -/
def countOf (part text : List Char) : Nat :=
  countFrom part 0 0 text

end DepGraph.Text

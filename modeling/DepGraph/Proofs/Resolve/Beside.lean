import DepGraph.Proofs.Resolve.Confinement

/-!
# Files beside the root

What lies outside the root should not matter to a resolver of files. It does where candidates lie
outside the root: those for the root itself are looked for beside it, and an extension is added to
what is shown of a path, which leads elsewhere if a name of the root is no text. A file that is found
there has no identifier and ends the search.

- `FileSystem.AgreeBelow`: two file systems have the same files below a directory.
- `RelativeImport.resolve_eq_bind_aim?`, `PythonModule.resolve_eq_bind_aim?`: a resolver tries the
  candidates for one path below the root.
- `Scope.isSome_firstFile_iff`: a search answers if a candidate below the root is a file and no other
  file comes first.
- `Scope.firstFile_ne_iff`: when two searches differ.
- `Resolver.differs_iff`: two file systems that agree below the root give different answers exactly
  if there is a file to answer, and only in one of them a file that is not below the root comes
  first; then the import leads to the root, or a script is looked for below a root whose name is no
  text.
- `Resolver.beside_matters`: for both resolvers there are such imports.
-/

namespace DepGraph

/-! ## Trees that differ elsewhere -/

namespace FileTree

theorem child?_setEntry_of_ne {name other : FileName} (h : other ≠ name) (sub : FileTree)
    (entries : List (FileName × FileTree)) :
    (directory (setEntry name sub entries)).child? other = (directory entries).child? other := by
  unfold child? FileTree.entries
  dsimp only
  refine congrArg (Option.map _) ?_
  induction entries with
  | nil => simp [setEntry, Ne.symm h]
  | cons entry rest ih =>
    obtain ⟨first, t⟩ := entry
    simp only [setEntry]
    split
    · next heq =>
      subst heq
      simp [Ne.symm h]
    · split
      · simp [Ne.symm h]
      · rw [List.find?_cons, List.find?_cons, ih]

/-- What is put below one entry does not concern another. -/
theorem find?_put_of_ne {name other : FileName} (h : other ≠ name) (t new : FileTree)
    (place rest : List FileName) :
    (t.put (name :: place) new).find? (other :: rest) = t.find? (other :: rest) := by
  rw [put, find?_cons, find?_cons, child?_setEntry_of_ne h]
  rfl

end FileTree

/-- The two file systems have the same files below the directory at a place. -/
def FileSystem.AgreeBelow (root : List FileName) (files files' : FileSystem) : Prop :=
  ∀ steps, steps ≠ [] →
    (files.tree.file? (root ++ steps)).isSome = (files'.tree.file? (root ++ steps)).isSome

/-! ## What a resolver searches for -/

/-- The path leads to a name below the directory at a place. -/
def Path.IsBelow (p : Path) (root : List FileName) : Prop :=
  ∃ steps, steps ≠ [] ∧ p = .ofNames (root ++ steps)

theorem Path.not_isBelow_sibling (directory : List FileName) (n m : FileName) :
    ¬ (ofNames (directory ++ [m])).IsBelow (directory ++ [n]) := by
  rintro ⟨steps, hne, heq⟩
  have hnames := map_name_injective (congrArg Path.parts heq)
  have hlength := congrArg List.length hnames
  simp only [List.length_append, List.length_singleton] at hlength
  have := List.length_pos_iff.mpr hne
  omega

namespace RelativeImport

open DepGraph.Path

/-- The path below the root, or the root itself, to which the import of a script leads. -/
def aim? (root : Path) (i : Import) (importer : Path) : Option Path :=
  if i.isRelative && importer.isScript then
    (target? i.specifier importer).filter (·.startsWith root)
  else none

theorem resolve_eq_bind_aim? (scope : Scope) (i : Import) (importer : Path) :
    resolve scope i importer =
      (aim? scope.root i importer).bind fun base => scope.firstFile (candidates base) := by
  unfold resolve aim?
  split
  · cases target? i.specifier importer with
    | none => rfl
    | some base =>
      by_cases hstarts : base.startsWith scope.root = true <;> simp [Option.filter, hstarts]
  · rfl

theorem exists_ofNames_of_aim? {root : List FileName} {i : Import} {importer base : Path}
    (h : aim? (.ofNames root) i importer = some base) :
    ∃ steps, base = .ofNames (root ++ steps) := by
  unfold aim? at h
  split at h
  swap
  · exact nomatch h
  obtain ⟨htarget, hstarts⟩ := Option.filter_eq_some_iff.mp h
  by_cases hroot : base = .ofNames root
  · exact ⟨[], by rw [hroot, List.append_nil]⟩
  · obtain ⟨directory, n, hbase⟩ := exists_eq_of_target? htarget hstarts hroot
    exact ⟨directory ++ [n], by rw [hbase, List.append_assoc]⟩

theorem exists_ofNames_of_mem_candidates_aim? {root : List FileName} {i : Import}
    {importer base c : Path} (h : aim? (.ofNames root) i importer = some base)
    (hc : c ∈ candidates base) : ∃ names, c = .ofNames names := by
  obtain ⟨steps, rfl⟩ := exists_ofNames_of_aim? h
  exact exists_eq_ofNames_of_mem_candidates hc

/-- The candidates for a path below the root are below it, if the names of the root are text. -/
theorem isBelow_of_mem_candidates {root steps : List FileName} (hroot : ∀ n ∈ root, n.IsText)
    (hne : steps ≠ []) {c : Path} (hc : c ∈ candidates (.ofNames (root ++ steps))) :
    c.IsBelow root := by
  obtain ⟨directory, n, rfl⟩ := (List.eq_nil_or_concat steps).resolve_left hne
  rw [List.concat_eq_append, ← List.append_assoc] at hc
  obtain ⟨rest, hrest, rfl | rfl⟩ := exists_ofNames_of_mem_candidates hc
  · exact ⟨directory ++ rest, List.append_ne_nil_of_right_ne_nil _ hrest, by
      rw [List.append_assoc]⟩
  · refine ⟨directory.map FileName.legible ++ rest, List.append_ne_nil_of_right_ne_nil _ hrest, ?_⟩
    rw [List.map_append, FileName.map_legible_eq_self_iff.mpr hroot, List.append_assoc]

end RelativeImport

namespace PythonModule

open DepGraph.Path

/-- The path below the root, or the root itself, to which the import of a Python source leads. -/
def aim? (root : Path) (i : Import) (importer : Path) : Option Path :=
  if isSource importer then (target? i.specifier importer root).filter (·.startsWith root)
  else none

theorem resolve_eq_bind_aim? (scope : Scope) (i : Import) (importer : Path) :
    resolve scope i importer =
      (aim? scope.root i importer).bind fun base => scope.firstFile (candidates base) := by
  unfold resolve aim?
  split
  · cases target? i.specifier importer scope.root with
    | none => rfl
    | some base =>
      by_cases hstarts : base.startsWith scope.root = true <;> simp [Option.filter, hstarts]
  · rfl

theorem exists_normalize_of_target? {specifier : String} {importer root target : Path}
    (h : target? specifier importer root = some target) :
    ∃ path : Path, target = path.normalize := by
  unfold target? at h
  dsimp only at h
  split at h
  · exact nomatch h
  · obtain ⟨base, -, rfl⟩ := Option.map_eq_some_iff.mp h
    exact ⟨_, rfl⟩

theorem exists_ofNames_of_aim? {root : List FileName} {i : Import} {importer base : Path}
    (h : aim? (.ofNames root) i importer = some base) :
    ∃ steps, base = .ofNames (root ++ steps) := by
  unfold aim? at h
  split at h
  swap
  · exact nomatch h
  obtain ⟨htarget, hstarts⟩ := Option.filter_eq_some_iff.mp h
  obtain ⟨path, rfl⟩ := exists_normalize_of_target? htarget
  have hnames := normalize_eq_ofNames_of_startsWith hstarts
  rw [hnames] at hstarts
  obtain ⟨rest, hrest⟩ := Option.isSome_iff_exists.mp hstarts
  obtain ⟨steps, hsteps, -⟩ := strip?_ofNames.mp hrest
  exact ⟨steps, by rw [hnames, hsteps]⟩

theorem exists_ofNames_of_mem_candidates_aim? {root : List FileName} {i : Import}
    {importer base c : Path} (h : aim? (.ofNames root) i importer = some base)
    (hc : c ∈ candidates base) : ∃ names, c = .ofNames names := by
  obtain ⟨steps, rfl⟩ := exists_ofNames_of_aim? h
  exact exists_ofNames_of_mem_candidates hc

/-- The candidates for a path below the root are below it. -/
theorem isBelow_of_mem_candidates {root steps : List FileName} (hne : steps ≠ []) {c : Path}
    (hc : c ∈ candidates (.ofNames (root ++ steps))) : c.IsBelow root := by
  obtain ⟨directory, n, rfl⟩ := (List.eq_nil_or_concat steps).resolve_left hne
  rw [List.concat_eq_append, ← List.append_assoc] at hc
  simp only [candidates, List.mem_cons, List.not_mem_nil, or_false] at hc
  rcases hc with rfl | rfl
  · obtain ⟨m, hm⟩ := exists_withExtension_eq (root ++ directory) n "py"
    exact ⟨directory ++ [m], List.concat_ne_nil m directory, by rw [hm, List.append_assoc]⟩
  · refine ⟨directory ++ [n] ++ [packageName], List.concat_ne_nil _ _, ?_⟩
    refine (join_ofText_named (root ++ directory ++ [n]) packageName.proper).trans ?_
    simp only [List.append_assoc]
    rfl

end PythonModule

/-! ## Searches in two file systems -/

namespace FileSystem

variable {files files' : FileSystem} {root : List FileName} {candidates : List Path}

/-- The first candidate that is a file is not below the root. -/
def Shadows (files : FileSystem) (root : List FileName) (candidates : List Path) : Prop :=
  ∃ c, candidates.find? files.isFile = some c ∧ ¬ c.IsBelow root

/-- A candidate below the root is a file. -/
def Answers (files : FileSystem) (root : List FileName) (candidates : List Path) : Prop :=
  ∃ c ∈ candidates, files.isFile c = true ∧ c.IsBelow root

theorem AgreeBelow.isFile_eq (hagree : AgreeBelow root files files') {c : Path}
    (hc : c.IsBelow root) : files.isFile c = files'.isFile c := by
  obtain ⟨steps, hne, rfl⟩ := hc
  rw [isFile_ofNames, isFile_ofNames]
  exact hagree steps hne

theorem AgreeBelow.answers_iff (hagree : AgreeBelow root files files') :
    files.Answers root candidates ↔ files'.Answers root candidates := by
  refine exists_congr fun c => and_congr_right fun _ => and_congr_left fun hbelow => ?_
  rw [hagree.isFile_eq hbelow]

/-- If only one of two files comes first, some candidate is not below the root. -/
theorem exists_not_isBelow
    (h : ¬ (files.Shadows root candidates ↔ files'.Shadows root candidates)) :
    ∃ c ∈ candidates, ¬ c.IsBelow root := by
  by_contra hall
  have hnot : ∀ fs : FileSystem, ¬ fs.Shadows root candidates := by
    rintro fs ⟨c, hfind, hc⟩
    exact hall ⟨c, List.mem_of_find?_eq_some hfind, hc⟩
  exact h (iff_of_false (hnot files) (hnot files'))

end FileSystem

namespace Scope

open FileSystem

variable {files files' : FileSystem} {root : List FileName} {candidates : List Path}
  (hnames : ∀ c ∈ candidates, ∃ names, c = .ofNames names)

theorem isSome_file_ofNames_iff {names : List FileName} :
    (Resolution.file (.ofNames root) (.ofNames names)).isSome = true ↔
      (Path.ofNames names).IsBelow root := by
  rw [Option.isSome_iff_exists]
  constructor
  · rintro ⟨r, hr⟩
    obtain ⟨steps, hne, rfl, -⟩ := Resolution.file_ofNames_iff.mp hr
    exact ⟨steps, hne, rfl⟩
  · rintro ⟨steps, hne, heq⟩
    exact ⟨_, Resolution.file_ofNames_iff.mpr ⟨steps, hne, Path.ofNames_injective heq, rfl⟩⟩

/-- Two searches in one list find the same if each would take what the other finds. -/
theorem eq_of_find?_eq_some {α : Type} {p q : α → Bool} {l : List α} {a b : α}
    (ha : l.find? p = some a) (hb : l.find? q = some b) (hqa : q a = true) (hpb : p b = true) :
    a = b := by
  induction l with
  | nil => exact nomatch ha
  | cons x l ih =>
    rw [List.find?_cons] at ha hb
    cases hp : p x <;> cases hq : q x <;> rw [hp] at ha <;> rw [hq] at hb
    · exact ih ha hb
    · rw [← Option.some.inj hb, hp] at hpb
      exact Bool.noConfusion hpb
    · rw [← Option.some.inj ha, hq] at hqa
      exact Bool.noConfusion hqa
    · exact Option.some.inj (ha.symm.trans hb)

include hnames

/-- A search answers if some candidate below the root is a file and no other file comes first. -/
theorem isSome_firstFile_iff : ((files.below root).firstFile candidates).isSome = true ↔
    files.Answers root candidates ∧ ¬ files.Shadows root candidates := by
  show ((candidates.find? files.isFile).bind (Resolution.file (.ofNames root))).isSome = true ↔ _
  cases hfind : candidates.find? files.isFile with
  | none =>
    refine iff_of_false Bool.false_ne_true ?_
    rintro ⟨⟨c, hc, hfile, -⟩, -⟩
    exact List.find?_eq_none.mp hfind c hc hfile
  | some c =>
    have hc := List.mem_of_find?_eq_some hfind
    obtain ⟨names, rfl⟩ := hnames c hc
    rw [Option.bind_some, isSome_file_ofNames_iff]
    constructor
    · refine fun hbelow => ⟨⟨_, hc, List.find?_some hfind, hbelow⟩, ?_⟩
      rintro ⟨c, hfirst, hnot⟩
      obtain rfl := Option.some.inj (hfind.symm.trans hfirst)
      exact hnot hbelow
    · rintro ⟨-, hnot⟩
      by_contra hbelow
      exact hnot ⟨_, hfind, hbelow⟩

/-- What both searches answer is one file. -/
theorem firstFile_eq_of_isSome (hagree : AgreeBelow root files files')
    (h : ((files.below root).firstFile candidates).isSome = true)
    (h' : ((files'.below root).firstFile candidates).isSome = true) :
    (files.below root).firstFile candidates = (files'.below root).firstFile candidates := by
  have hfound : ∀ fs : FileSystem, ((fs.below root).firstFile candidates).isSome = true →
      ∃ c, candidates.find? fs.isFile = some c ∧ c.IsBelow root := by
    intro fs hsome
    obtain ⟨r, hr⟩ := Option.isSome_iff_exists.mp hsome
    obtain ⟨c, hfind, hfile⟩ := Option.bind_eq_some_iff.mp hr
    obtain ⟨names, rfl⟩ := hnames c (List.mem_of_find?_eq_some hfind)
    exact ⟨_, hfind, isSome_file_ofNames_iff.mp (Option.isSome_iff_exists.mpr ⟨r, hfile⟩)⟩
  obtain ⟨c, hfind, hbelow⟩ := hfound files h
  obtain ⟨c', hfind', hbelow'⟩ := hfound files' h'
  have heq : c = c' := eq_of_find?_eq_some hfind hfind'
    ((hagree.isFile_eq hbelow).symm.trans (List.find?_some hfind))
    ((hagree.isFile_eq hbelow').trans (List.find?_some hfind'))
  show (candidates.find? files.isFile).bind _ = (candidates.find? files'.isFile).bind _
  rw [hfind, hfind', heq]
  rfl

/-- Two searches differ if there is a file to answer and another file comes first in one of them. -/
theorem firstFile_ne_iff (hagree : AgreeBelow root files files') :
    (files.below root).firstFile candidates ≠ (files'.below root).firstFile candidates ↔
      files.Answers root candidates ∧
        ¬ (files.Shadows root candidates ↔ files'.Shadows root candidates) := by
  have hsome : ((files.below root).firstFile candidates).isSome = true ↔ _ :=
    isSome_firstFile_iff hnames
  have hsome' : ((files'.below root).firstFile candidates).isSome = true ↔ _ :=
    isSome_firstFile_iff hnames
  rw [← hagree.answers_iff] at hsome'
  constructor
  · intro hne
    by_contra hsame
    have hiff : ((files.below root).firstFile candidates).isSome = true ↔
        ((files'.below root).firstFile candidates).isSome = true := by
      rw [hsome, hsome']
      exact and_congr_right fun hanswers =>
        not_congr (not_not.mp fun hnot => hsame ⟨hanswers, hnot⟩)
    by_cases h : ((files.below root).firstFile candidates).isSome = true
    · exact hne (firstFile_eq_of_isSome hnames hagree h (hiff.mp h))
    · rw [Option.not_isSome_iff_eq_none.mp h,
        Option.not_isSome_iff_eq_none.mp fun h' => h (hiff.mpr h')] at hne
      exact hne rfl
  · rintro ⟨hanswers, hdiffer⟩ heq
    rw [heq, hsome'] at hsome
    exact hdiffer (not_iff_not.mp ⟨fun h => (hsome.mpr ⟨hanswers, h⟩).2,
      fun h => (hsome.mp ⟨hanswers, h⟩).2⟩)

omit hnames in
/-- Two searches for the candidates of what an import leads to. -/
theorem bind_firstFile_ne_iff (hagree : AgreeBelow root files files')
    {candidates : Path → List Path} {aim : Option Path}
    (hnames : ∀ base, aim = some base → ∀ c ∈ candidates base, ∃ names, c = .ofNames names) :
    (aim.bind fun base => (files.below root).firstFile (candidates base)) ≠
        (aim.bind fun base => (files'.below root).firstFile (candidates base)) ↔
      ∃ base, aim = some base ∧ files.Answers root (candidates base) ∧
        ¬ (files.Shadows root (candidates base) ↔ files'.Shadows root (candidates base)) := by
  cases haim : aim with
  | none => simp
  | some base =>
    rw [Option.bind_some, Option.bind_some, firstFile_ne_iff (hnames base haim) hagree]
    simp

end Scope

/-! ## Both resolvers -/

namespace Resolver

open FileSystem

/-- Between file systems with the same files below the root, an import can tell only if it leads to
the root, or if it leads below a root with a name that is no text and is one of a script. It does so
if there is a file to answer and in exactly one of the two a file that is not below the root is found
before. -/
theorem differs_iff {files files' : FileSystem} {root : List FileName}
    (hagree : AgreeBelow root files files') (i : Import) (importer : Path) :
    (relative.resolve (files.below root) i importer ≠
        relative.resolve (files'.below root) i importer ↔
      ∃ base, RelativeImport.aim? (.ofNames root) i importer = some base ∧
        (base = .ofNames root ∨ ¬ ∀ n ∈ root, n.IsText) ∧
        files.Answers root (RelativeImport.candidates base) ∧
        ¬ (files.Shadows root (RelativeImport.candidates base) ↔
          files'.Shadows root (RelativeImport.candidates base))) ∧
    (python.resolve (files.below root) i importer ≠
        python.resolve (files'.below root) i importer ↔
      PythonModule.aim? (.ofNames root) i importer = some (.ofNames root) ∧
        files.Answers root (PythonModule.candidates (.ofNames root)) ∧
        ¬ (files.Shadows root (PythonModule.candidates (.ofNames root)) ↔
          files'.Shadows root (PythonModule.candidates (.ofNames root)))) := by
  constructor
  · show RelativeImport.resolve _ i importer ≠ RelativeImport.resolve _ i importer ↔ _
    rw [RelativeImport.resolve_eq_bind_aim?, RelativeImport.resolve_eq_bind_aim?]
    refine (Scope.bind_firstFile_ne_iff hagree fun _ haim _ hc =>
      RelativeImport.exists_ofNames_of_mem_candidates_aim? haim hc).trans ?_
    refine exists_congr fun base => and_congr_right fun haim => ?_
    refine (and_iff_right_of_imp ?_).symm
    rintro ⟨-, hdiffer⟩
    obtain ⟨c, hc, hnot⟩ := exists_not_isBelow hdiffer
    obtain ⟨steps, rfl⟩ := RelativeImport.exists_ofNames_of_aim? haim
    by_cases hsteps : steps = []
    · exact .inl (by rw [hsteps, List.append_nil])
    · exact .inr fun hroot => hnot (RelativeImport.isBelow_of_mem_candidates hroot hsteps hc)
  · show PythonModule.resolve _ i importer ≠ PythonModule.resolve _ i importer ↔ _
    rw [PythonModule.resolve_eq_bind_aim?, PythonModule.resolve_eq_bind_aim?]
    refine (Scope.bind_firstFile_ne_iff hagree fun _ haim _ hc =>
      PythonModule.exists_ofNames_of_mem_candidates_aim? haim hc).trans ?_
    constructor
    · rintro ⟨base, haim, hanswers, hdiffer⟩
      obtain ⟨c, hc, hnot⟩ := exists_not_isBelow hdiffer
      obtain ⟨steps, rfl⟩ := PythonModule.exists_ofNames_of_aim? haim
      obtain rfl : steps = [] := by
        by_contra hsteps
        exact hnot (PythonModule.isBelow_of_mem_candidates hsteps hc)
      rw [List.append_nil] at haim hanswers hdiffer
      exact ⟨haim, hanswers, hdiffer⟩
    · rintro ⟨haim, hdiffer⟩
      exact ⟨_, haim, hdiffer⟩

/-- A project with an index and a package file, alone. -/
def alone : FileSystem :=
  (({} : FileSystem).write [.named "web", .named "index.js"] { bytes := ⟨#[]⟩ }).write
    [.named "web", PythonModule.packageName] { bytes := ⟨#[]⟩ }

/-- The project with files of its own name beside it. -/
def crowded : FileSystem :=
  (alone.write [.named "web.ts"] { bytes := ⟨#[]⟩ }).write [.named "web.py"]
    { bytes := ⟨#[]⟩ }

theorem find?_crowded (steps : List FileName) :
    crowded.tree.find? ([.named "web"] ++ steps) =
      alone.tree.find? ([.named "web"] ++ steps) := by
  have hpython : (.named "web" : FileName) ≠ .named "web.py" := by decide
  have hscript : (.named "web" : FileName) ≠ .named "web.ts" := by decide
  exact (FileTree.find?_put_of_ne hpython _ _ [] steps).trans
    (FileTree.find?_put_of_ne hscript _ _ [] steps)

theorem file?_crowded (steps : List FileName) :
    crowded.tree.file? ([.named "web"] ++ steps) =
      alone.tree.file? ([.named "web"] ++ steps) := by
  unfold FileTree.file?
  rw [find?_crowded]

/-- An import of the directory that holds the importing script, which is the root. -/
theorem differs_crowded :
    AgreeBelow [.named "web"] alone crowded ∧
      relative.resolve (alone.below [.named "web"]) ⟨".", .static, 1⟩
          (.ofText "/web/main.ts") ≠
        relative.resolve (crowded.below [.named "web"]) ⟨".", .static, 1⟩
          (.ofText "/web/main.ts") := by
  have hagree : AgreeBelow [.named "web"] alone crowded :=
    fun steps _ => congrArg Option.isSome (file?_crowded steps).symm
  refine ⟨hagree, (differs_iff hagree _ _).1.mpr
    ⟨.ofNames [.named "web"], by decide +kernel, .inl rfl, ?_, ?_⟩⟩
  · exact ⟨.ofText "/web/index.js", by decide +kernel, by decide +kernel,
      [.named "index.js"], by decide, by decide +kernel⟩
  · intro hiff
    have hcrowded : crowded.Shadows [.named "web"]
        (RelativeImport.candidates (.ofNames [.named "web"])) :=
      ⟨.ofNames [.named "web.ts"], by decide +kernel, Path.not_isBelow_sibling [] _ _⟩
    obtain ⟨c, hfind, hnot⟩ := hiff.mpr hcrowded
    have hindex : (RelativeImport.candidates (.ofNames [.named "web"])).find? alone.isFile =
        some (.ofNames [.named "web", .named "index.js"]) := by
      decide +kernel
    rw [← Option.some.inj (hindex.symm.trans hfind)] at hnot
    exact hnot ⟨[.named "index.js"], by decide, rfl⟩

/-- The resolver answers an import of a file below the root alike in all file systems with the same
files below the root. -/
def IgnoresBeside (resolver : Resolver) : Prop :=
  ∀ (files files' : FileSystem) (root steps : List FileName) (i : Import),
    (∀ below, below ≠ [] → files.tree.file? (root ++ below) = files'.tree.file? (root ++ below)) →
      steps ≠ [] →
        resolver.resolve (files.below root) i (.ofNames (root ++ steps)) =
          resolver.resolve (files'.below root) i (.ofNames (root ++ steps))

/-- Neither resolver does: in the crowded project the index and the package file are not found. -/
theorem beside_matters : ¬ relative.IgnoresBeside ∧ ¬ python.IgnoresBeside := by
  constructor
  · intro hsame
    have h := hsame alone crowded [.named "web"] [.named "main.ts"] ⟨".", .static, 1⟩
      (fun below _ => (file?_crowded below).symm) (by decide)
    revert h
    decide +kernel
  · intro hsame
    have h := hsame alone crowded [.named "web"] [.named "main.py"]
      ⟨"..web", .static, 1⟩ (fun below _ => (file?_crowded below).symm) (by decide)
    revert h
    decide +kernel

end Resolver

end DepGraph

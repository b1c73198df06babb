import DepGraph.Proofs.Resolve.Beside
import DepGraph.Proofs.Resolve.Exclusion
import DepGraph.Source.Parsers

/-!
# The language of a file

Three places look at the extension of a file: the registry of parsers, the parser of scripts when it
chooses the dialect, and each resolver. The first two do not care for the case of ASCII letters, and
neither do the resolvers for scripts. The resolver for Python modules does, so that a source with
capitals in its extension is parsed, but nothing that it imports is found.

- `Path.language?`, `Path.Alike`: the extension in lower case, and files of one language in one
  directory.
- `ParserRegistry.parserOf?_standard`: the parser of a file.
- `Script.Dialect.ofPath_eq`: the dialect of a script.
- `Resolver.Accepts`: a resolver knows an import of the file, wherever files are.
- `isSource_eq_true_iff`: which Python sources the resolver knows.
- `resolve_ne_iff_of_alike`: files of one language are parsed alike, but they are not resolved alike
  if they are Python sources and only one of the extensions is in lower case.
- `capitals_matter`: there are such sources.
-/

namespace DepGraph

open DepGraph.Text

/-! ## Languages -/

namespace Path

/-- The extension with its ASCII letters in lower case. -/
def language? (p : Path) : Option String :=
  p.extension?.map loweredAscii

/-- The extensions of scripts. -/
def scriptLanguages : List String :=
  ["js", "jsx", "mjs", "cjs", "ts", "tsx", "mts", "cts"]

/-- The extensions of Python sources. -/
def pythonLanguages : List String :=
  ["py", "pyi"]

/-- Is the file a Python source, whatever the case of its extension? -/
def isPython (p : Path) : Bool :=
  p.language?.any pythonLanguages.contains

/-- The extension has no ASCII capitals. -/
def InLowerCase (p : Path) : Prop :=
  p.language? = p.extension?

instance (p : Path) : Decidable p.InLowerCase :=
  inferInstanceAs (Decidable (p.language? = p.extension?))

/-- The files stand in one directory, and their extensions differ at most in the case of ASCII
letters. -/
structure Alike (p q : Path) : Prop where
  parent_eq : p.parent? = q.parent?
  language_eq : p.language? = q.language?

theorem isScript_eq_any_language? (p : Path) :
    p.isScript = p.language?.any scriptLanguages.contains := by
  unfold isScript language?
  cases p.extension? <;> rfl

theorem Alike.isScript_eq {p q : Path} (h : p.Alike q) : p.isScript = q.isScript := by
  rw [isScript_eq_any_language?, isScript_eq_any_language?, h.language_eq]

theorem Alike.isPython_eq {p q : Path} (h : p.Alike q) : p.isPython = q.isPython := by
  rw [isPython, isPython, h.language_eq]

/-- A file with an extension is a file in a directory. -/
theorem exists_parent?_of_extension? {p : Path} {extension : String}
    (h : p.extension? = some extension) : ∃ directory, p.parent? = some directory := by
  obtain ⟨n, hname, -⟩ := Option.bind_eq_some_iff.mp h
  obtain ⟨start, parts⟩ := p
  cases parts with
  | nil => exact nomatch hname
  | cons part parts => exact ⟨_, rfl⟩

end Path

/-! ## Parsers -/

theorem ParserRegistry.parserFor?_standard (extension : String) :
    standard.parserFor? extension =
      if Path.pythonLanguages.contains (loweredAscii extension) then some .python
      else if Path.scriptLanguages.contains (loweredAscii extension) then some .script
      else none := by
  -- the extensions that the parsers list are in lower case
  have hpython : SourceParser.python.extensions.map loweredAscii = Path.pythonLanguages := by
    decide +kernel
  have hscript : (SourceParser.script.extensions.map loweredAscii).Perm Path.scriptLanguages := by
    decide +kernel
  have hany : ∀ extensions : List String,
      extensions.any (loweredAscii · == loweredAscii extension) =
        (extensions.map loweredAscii).contains (loweredAscii extension) := by
    intro extensions
    rw [List.contains_eq_any_beq, List.any_map]
    exact congrArg _ (funext fun e => Bool.beq_comm)
  rw [standard, parserFor?_register, parserFor?_register, hany, hany, hpython,
    hscript.contains_eq]
  rfl

theorem ParserRegistry.parserOf?_standard (p : Path) :
    standard.parserOf? p =
      if p.isPython then some .python else if p.isScript then some .script else none := by
  unfold parserOf? Path.isPython Path.isScript Path.language?
  cases p.extension? with
  | none => rfl
  | some extension => exact parserFor?_standard extension

/-- A script is no Python source in whatever case. -/
theorem Path.isPython_of_isScript {p : Path} (h : p.isScript = true) : p.isPython = false := by
  rw [isScript_eq_any_language?] at h
  obtain ⟨language, hlanguage, hscript⟩ := (Option.any_eq_true _ _).mp h
  have hdisjoint : ∀ e ∈ scriptLanguages, pythonLanguages.contains e = false := by
    decide +kernel
  rw [isPython, hlanguage]
  exact hdisjoint language (List.contains_iff_mem.mp hscript)

theorem SourceParser.script_ne_python : SourceParser.script ≠ .python := by
  intro h
  exact absurd (congrArg SourceParser.name h) (by decide)

theorem ParserRegistry.parserOf?_eq_python_iff {p : Path} :
    standard.parserOf? p = some .python ↔ p.isPython = true := by
  rw [parserOf?_standard]
  cases p.isPython <;> cases p.isScript <;> simp [SourceParser.script_ne_python]

theorem ParserRegistry.parserOf?_eq_script_iff {p : Path} :
    standard.parserOf? p = some .script ↔ p.isScript = true := by
  rw [parserOf?_standard]
  cases hscript : p.isScript with
  | true => simp [Path.isPython_of_isScript hscript]
  | false => cases p.isPython <;> simp [SourceParser.script_ne_python.symm]

/-! ## Dialects -/

namespace Text

theorem toNat_lt_of_toLower {c : Char} (h : c.toLower.toNat < 128) : c.toNat < 128 := by
  unfold Char.toLower at h
  split at h
  · next hcapital =>
    have : c.toNat ≤ 90 := hcapital.2
    omega
  · exact h

/-- On ASCII, the two ways to lower case agree. -/
theorem lowerAfter_of_ascii (before : List Char) {text : List Char}
    (h : ∀ c ∈ text, c.toNat < 128) : lowerAfter before text = lowerAscii text := by
  induction text generalizing before with
  | nil => rfl
  | cons c text ih =>
    obtain ⟨hc, htext⟩ := List.forall_mem_cons.mp h
    have hsigma : (c == 'Σ') = false := by
      rw [beq_eq_false_iff_ne]
      rintro rfl
      exact absurd hc (by decide)
    have hdotted : (c == 'İ') = false := by
      rw [beq_eq_false_iff_ne]
      rintro rfl
      exact absurd hc (by decide)
    rw [lowerAfter, hsigma, hdotted, if_neg Bool.false_ne_true, if_neg Bool.false_ne_true,
      lowerChar_of_ascii hc, ih _ htext]
    rfl

theorem lowered_eq_loweredAscii {text : String}
    (h : ∀ c ∈ (loweredAscii text).toList, c.toNat < 128) : lowered text = loweredAscii text := by
  have htext : ∀ c ∈ text.toList, c.toNat < 128 := by
    intro c hc
    refine toNat_lt_of_toLower (h _ ?_)
    rw [loweredAscii, String.toList_ofList]
    exact List.mem_map_of_mem hc
  exact congrArg String.ofList (lowerAfter_of_ascii [] htext)

end Text

/-- The dialect of a script is that of its extension in lower case. -/
theorem Script.Dialect.ofPath_eq {p : Path} (h : p.isScript = true) :
    ofPath p = (p.language?.bind ofLowerExtension?).getD .javaScript := by
  obtain ⟨extension, hextension, hscript⟩ := (Option.any_eq_true _ _).mp h
  have htable : (Path.scriptLanguages.all fun e => e.toList.all (·.toNat < 128)) = true := by
    decide +kernel
  have hascii : ∀ c ∈ (loweredAscii extension).toList, c.toNat < 128 := fun c hc =>
    of_decide_eq_true (List.all_eq_true.mp
      (List.all_eq_true.mp htable _ (List.contains_iff_mem.mp hscript)) c hc)
  have hlowered := lowered_eq_loweredAscii hascii
  rw [ofPath, Path.language?, hextension, Option.getD_some, ofExtension?, hlowered]
  rfl

/-- Files of one language are parsed alike. -/
theorem ParserRegistry.parse_eq_of_alike {p q : Path} (h : p.Alike q) (source : List Char) :
    (standard.parserOf? p).map (·.parse p source) =
      (standard.parserOf? q).map (·.parse q source) := by
  rw [parserOf?_standard, parserOf?_standard, ← h.isPython_eq, ← h.isScript_eq]
  cases p.isPython with
  | true => rfl
  | false =>
    cases hscript : p.isScript with
    | false => rfl
    | true =>
      have hdialect : Script.Dialect.ofPath p = Script.Dialect.ofPath q := by
        rw [Script.Dialect.ofPath_eq hscript,
          Script.Dialect.ofPath_eq (h.isScript_eq.symm.trans hscript), h.language_eq]
      show some (Except.ok (Script.parse (.ofPath p) source)) =
        some (Except.ok (Script.parse (.ofPath q) source))
      rw [hdialect]

/-! ## Resolvers -/

/-- The resolver knows an import of the file, if files are in the right places. -/
def Resolver.Accepts (resolver : Resolver) (importer : Path) : Prop :=
  ∃ scope i, (resolver.resolve scope i importer).isSome = true

theorem isSource_eq_true_iff {p : Path} :
    PythonModule.isSource p = true ↔ p.isPython = true ∧ p.InLowerCase := by
  unfold PythonModule.isSource Path.isPython Path.InLowerCase Path.language?
  cases p.extension? with
  | none => simp
  | some extension =>
    simp only [Option.map_some, Option.any_some, Option.some.injEq, Bool.or_eq_true, beq_iff_eq,
      List.contains_iff_mem]
    constructor
    · rintro (rfl | rfl)
      · exact ⟨by decide +kernel, by decide +kernel⟩
      · exact ⟨by decide +kernel, by decide +kernel⟩
    · rintro ⟨hpython, hlower⟩
      rw [hlower] at hpython
      simpa [Path.pythonLanguages] using hpython

theorem Resolver.not_accepts {resolver : Resolver} {p : Path}
    (h : ∀ scope i, resolver.resolve scope i p = none) : ¬ resolver.Accepts p := by
  rintro ⟨scope, i, hsome⟩
  rw [h] at hsome
  exact Bool.false_ne_true hsome

/-- A relative path is walked after the one that it is joined to. -/
theorem Path.parts_join (p : Path) {q : Path} (h : q.start ≠ .root) :
    (p.join q).parts = p.parts ++ q.parts := by
  obtain ⟨start, parts⟩ := p
  obtain ⟨start', parts'⟩ := q
  cases start' with
  | root => exact absurd rfl h
  | here | implicit => cases start <;> cases parts <;> rfl

theorem Path.strip?_normalize (p : Path) :
    strip? ⟨p.normalize.start, []⟩ p.normalize = some ⟨.implicit, p.normalize.parts⟩ := by
  unfold normalize
  cases p.isAbsolute <;> rfl

/-- Seen from where it starts, a path in normal form leads to a file if it ends in a name. -/
theorem Resolution.isSome_file_normalize {p : Path} {names : List FileName} {n : FileName}
    (h : p.resolved = names ++ [n]) : (file ⟨p.normalize.start, []⟩ p.normalize).isSome = true := by
  have hparts : p.normalize.parts = names.map .name ++ [.name n] := by
    rw [Path.normalize, h, List.map_append]
    rfl
  obtain ⟨first, rest, hcons⟩ := List.exists_cons_of_ne_nil
    (List.append_ne_nil_of_right_ne_nil (names.map PathPart.name) (List.cons_ne_nil (.name n) []))
  rw [file, Path.fileName?, Path.relativeId?, Path.strip?_normalize, hparts, List.getLast?_concat,
    hcons]
  rfl

namespace Resolver

theorem accepts_relative_iff {p : Path} : relative.Accepts p ↔ p.isScript = true := by
  constructor
  · intro h
    by_contra hscript
    exact not_accepts (fun _ _ => resolve_relative_eq_none (Bool.eq_false_iff.mpr hscript)) h
  · intro h
    obtain ⟨extension, hextension, -⟩ := (Option.any_eq_true _ _).mp h
    obtain ⟨directory, hdirectory⟩ := Path.exists_parent?_of_extension? hextension
    -- a file beside it, seen from where the path to it starts
    obtain ⟨base, hbase⟩ : ∃ base, base = directory.join (.ofText "./x") := ⟨_, rfl⟩
    have hresolved : base.resolved = directory.resolved ++ [.named "x"] := by
      rw [hbase, Path.resolved, Path.parts_join directory (by decide), Path.resolveFrom_append]
      exact List.reverse_cons
    have haim : RelativeImport.aim? ⟨base.normalize.start, []⟩ ⟨"./x", .static, 1⟩ p =
        some base.normalize := by
      have hstarts : base.normalize.startsWith ⟨base.normalize.start, []⟩ = true := by
        rw [Path.startsWith, Path.strip?_normalize]
        rfl
      have htarget : RelativeImport.target? "./x" p = some base.normalize := by
        rw [RelativeImport.target?, hdirectory, hbase]
        rfl
      unfold RelativeImport.aim?
      rw [h, htarget, Option.filter_some, hstarts]
      rfl
    refine ⟨⟨⟨base.normalize.start, []⟩, fun _ => true⟩, ⟨"./x", .static, 1⟩, ?_⟩
    show (RelativeImport.resolve _ _ p).isSome = true
    rw [RelativeImport.resolve_eq_bind_aim?, haim]
    exact Resolution.isSome_file_normalize hresolved

theorem accepts_python_iff {p : Path} :
    python.Accepts p ↔ p.isPython = true ∧ p.InLowerCase := by
  rw [← isSource_eq_true_iff]
  constructor
  · intro h
    by_contra hsource
    exact not_accepts (fun _ _ => resolve_python_eq_none (Bool.eq_false_iff.mpr hsource)) h
  · intro h
    refine ⟨⟨.ofNames [], fun _ => true⟩, ⟨"x", .static, 1⟩, ?_⟩
    show (PythonModule.resolve ⟨.ofNames [], fun _ => true⟩ ⟨"x", .static, 1⟩ p).isSome = true
    rw [PythonModule.resolve, if_pos h]
    rfl

theorem exists_accepts_declared_iff {p : Path} :
    (∃ dependencies, (declared dependencies).Accepts p) ↔ p.isScript = true := by
  constructor
  · rintro ⟨dependencies, h⟩
    by_contra hscript
    exact not_accepts (fun _ _ => resolve_declared_eq_none (.inr (Bool.eq_false_iff.mpr hscript))) h
  · intro h
    refine ⟨[⟨"react", "18.2.0", .production⟩], ⟨.ofNames [], fun _ => true⟩,
      ⟨"react", .static, 1⟩, ?_⟩
    show (DeclaredPackage.resolve _ _ p).isSome = true
    rw [DeclaredPackage.resolve, if_pos h]
    rfl

end Resolver

/-! ## Files of one language -/

/-- The resolvers for files, and the one for the packages that are declared. -/
def ResolverRegistry.withPackages (dependencies : List Dependency) : ResolverRegistry :=
  standard.register (.declared dependencies)

section

variable {p q : Path} {scope : Scope} {i : Import} {dependencies : List Dependency}

theorem resolve_withPackages :
    (ResolverRegistry.withPackages dependencies).resolve scope i p =
      ((Resolver.relative.resolve scope i p).or (Resolver.python.resolve scope i p)).or
        ((Resolver.declared dependencies).resolve scope i p) := by
  have hnew : ResolverRegistry.standard.names.contains "package" = false := by decide +kernel
  rw [ResolverRegistry.withPackages, ResolverRegistry.resolve_register hnew, resolve_standard]
  rfl

/-- A file that is no script is left to the resolver for Python modules. -/
theorem resolve_withPackages_of_not_isScript (h : p.isScript = false) :
    (ResolverRegistry.withPackages dependencies).resolve scope i p =
      Resolver.python.resolve scope i p := by
  rw [resolve_withPackages, Resolver.resolve_relative_eq_none h,
    Resolver.resolve_declared_eq_none (.inr h), Option.or_none, Option.none_or]

theorem Path.Alike.resolve_relative_eq (h : p.Alike q) :
    Resolver.relative.resolve scope i p = Resolver.relative.resolve scope i q := by
  have htarget : RelativeImport.target? i.specifier p = RelativeImport.target? i.specifier q := by
    rw [RelativeImport.target?, RelativeImport.target?, h.parent_eq]
  show RelativeImport.resolve scope i p = RelativeImport.resolve scope i q
  rw [RelativeImport.resolve, RelativeImport.resolve, h.isScript_eq, htarget]

theorem Path.Alike.resolve_declared_eq (h : p.Alike q) :
    (Resolver.declared dependencies).resolve scope i p =
      (Resolver.declared dependencies).resolve scope i q := by
  show DeclaredPackage.resolve _ i p = DeclaredPackage.resolve _ i q
  rw [DeclaredPackage.resolve, DeclaredPackage.resolve, h.isScript_eq]

theorem Path.Alike.resolve_python_eq (h : p.Alike q)
    (hsource : PythonModule.isSource p = PythonModule.isSource q) :
    Resolver.python.resolve scope i p = Resolver.python.resolve scope i q := by
  have htarget : PythonModule.target? i.specifier p scope.root =
      PythonModule.target? i.specifier q scope.root := by
    unfold PythonModule.target? PythonModule.baseDirectory?
    rw [h.parent_eq]
  show PythonModule.resolve scope i p = PythonModule.resolve scope i q
  rw [PythonModule.resolve, PythonModule.resolve, hsource, htarget]

/-- Scripts of one language in one directory import the same. -/
theorem Path.Alike.resolve_withPackages_eq (h : p.Alike q) (hscript : p.isScript = true) :
    (ResolverRegistry.withPackages dependencies).resolve scope i p =
      (ResolverRegistry.withPackages dependencies).resolve scope i q := by
  have hsource := isSource_of_isScript hscript
  have hsource' := isSource_of_isScript (h.isScript_eq.symm.trans hscript)
  rw [resolve_withPackages, resolve_withPackages, h.resolve_relative_eq, h.resolve_declared_eq,
    h.resolve_python_eq (hsource.trans hsource'.symm)]

/-- The import leads somewhere from the first of the files, whose extension is in lower case, and the
extension of the other one has capitals. -/
def FoundOnlyIn (scope : Scope) (i : Import) (p q : Path) : Prop :=
  p.InLowerCase ∧ ¬ q.InLowerCase ∧ (Resolver.python.resolve scope i p).isSome = true

/-- Of Python sources in one directory, only one of which is in lower case, that one imports
more. -/
theorem resolve_python_ne_iff (h : p.Alike q) (hpython : p.isPython = true) :
    Resolver.python.resolve scope i p ≠ Resolver.python.resolve scope i q ↔
      FoundOnlyIn scope i p q ∨ FoundOnlyIn scope i q p := by
  have hlower : PythonModule.isSource p = true ↔ p.InLowerCase := by
    rw [isSource_eq_true_iff, and_iff_right hpython]
  have hlower' : PythonModule.isSource q = true ↔ q.InLowerCase := by
    rw [isSource_eq_true_iff, and_iff_right (h.isPython_eq.symm.trans hpython)]
  have hsome : ∀ r, (Resolver.python.resolve scope i r).isSome = true ↔
      Resolver.python.resolve scope i r ≠ none := fun r => Option.isSome_iff_ne_none
  simp only [FoundOnlyIn, ← hlower, ← hlower', hsome]
  cases hsource : PythonModule.isSource p <;> cases hsource' : PythonModule.isSource q
  · simp [h.resolve_python_eq (hsource.trans hsource'.symm)]
  · simp [Resolver.resolve_python_eq_none hsource, eq_comm]
  · simp [Resolver.resolve_python_eq_none hsource']
  · simp [h.resolve_python_eq (hsource.trans hsource'.symm)]

end

/-- Every script that is parsed is known to the resolvers for scripts, and a Python source is known
to the resolver for Python modules if its extension is in lower case. Files of one language in one
directory are parsed alike; what they import is found alike unless they are Python sources and only
one of the extensions is in lower case. -/
theorem resolve_ne_iff_of_alike (p : Path) :
    (ParserRegistry.standard.parserOf? p = some .script ↔ Resolver.relative.Accepts p) ∧
    (ParserRegistry.standard.parserOf? p = some .script ↔
      ∃ dependencies, (Resolver.declared dependencies).Accepts p) ∧
    (Resolver.python.Accepts p ↔
      ParserRegistry.standard.parserOf? p = some .python ∧ p.InLowerCase) ∧
    ∀ q : Path, p.Alike q →
      (∀ source, (ParserRegistry.standard.parserOf? p).map (·.parse p source) =
        (ParserRegistry.standard.parserOf? q).map (·.parse q source)) ∧
      ∀ dependencies scope i,
        (ResolverRegistry.withPackages dependencies).resolve scope i p ≠
            (ResolverRegistry.withPackages dependencies).resolve scope i q ↔
          ParserRegistry.standard.parserOf? p = some .python ∧
            (FoundOnlyIn scope i p q ∨ FoundOnlyIn scope i q p) := by
  simp only [ParserRegistry.parserOf?_eq_script_iff, ParserRegistry.parserOf?_eq_python_iff,
    Resolver.accepts_relative_iff, Resolver.exists_accepts_declared_iff,
    Resolver.accepts_python_iff, true_and]
  refine fun q h => ⟨ParserRegistry.parse_eq_of_alike h, fun dependencies scope i => ?_⟩
  cases hscript : p.isScript with
  | true =>
    rw [h.resolve_withPackages_eq hscript, Path.isPython_of_isScript hscript]
    exact iff_of_false (fun hne => hne rfl) fun hpython => Bool.false_ne_true hpython.1
  | false =>
    rw [resolve_withPackages_of_not_isScript hscript,
      resolve_withPackages_of_not_isScript (h.isScript_eq.symm.trans hscript)]
    cases hpython : p.isPython with
    | true => rw [resolve_python_ne_iff h hpython, and_iff_right rfl]
    | false =>
      -- neither of them is known to the resolver
      have hnone : ∀ r : Path, r.isPython = false → Resolver.python.resolve scope i r = none := by
        intro r hr
        refine Resolver.resolve_python_eq_none (Bool.eq_false_iff.mpr fun hsource => ?_)
        rw [(isSource_eq_true_iff.mp hsource).1] at hr
        exact Bool.noConfusion hr
      rw [hnone p hpython, hnone q (h.isPython_eq.symm.trans hpython)]
      exact iff_of_false (fun hne => hne rfl) fun hpython => Bool.false_ne_true hpython.1

/-- A directory with a module in it. -/
def oneModule : FileSystem :=
  ({} : FileSystem).write [.named "shop", .named "cart.py"] { bytes := ⟨#[]⟩ }

/-- Two spellings of a Python source, and two of a script. -/
theorem resolve_ne_iff_of_alike_main :
    ((Path.ofText "/shop/main.py").Alike (.ofText "/shop/main.PY") ∧
      (ResolverRegistry.withPackages []).resolve (oneModule.below [.named "shop"])
          ⟨"cart", .static, 1⟩ (.ofText "/shop/main.py") ≠
        (ResolverRegistry.withPackages []).resolve (oneModule.below [.named "shop"])
          ⟨"cart", .static, 1⟩ (.ofText "/shop/main.PY")) ∧
    (Path.ofText "/shop/main.tsx").Alike (.ofText "/shop/main.TsX") ∧
      ∀ source, (ParserRegistry.standard.parserOf? (.ofText "/shop/main.tsx")).map
          (·.parse (.ofText "/shop/main.tsx") source) =
        (ParserRegistry.standard.parserOf? (.ofText "/shop/main.TsX")).map
          (·.parse (.ofText "/shop/main.TsX") source) := by
  have hpython : (Path.ofText "/shop/main.py").Alike (.ofText "/shop/main.PY") :=
    ⟨by decide +kernel, by decide +kernel⟩
  have hscript : (Path.ofText "/shop/main.tsx").Alike (.ofText "/shop/main.TsX") :=
    ⟨by decide +kernel, by decide +kernel⟩
  obtain ⟨-, -, -, halike⟩ := resolve_ne_iff_of_alike (.ofText "/shop/main.py")
  obtain ⟨-, -, -, halike'⟩ := resolve_ne_iff_of_alike (.ofText "/shop/main.tsx")
  refine ⟨⟨hpython, ?_⟩, hscript, (halike' _ hscript).1⟩
  refine ((halike _ hpython).2 [] _ _).mpr ⟨?_, .inl ⟨?_, ?_, ?_⟩⟩
  · exact ParserRegistry.parserOf?_eq_python_iff.mpr (by decide +kernel)
  all_goals decide +kernel

/-- A source whose extension has capitals is parsed, but the resolver does not know any import of it,
while the same import leads to a file from the source without the capitals. -/
theorem capitals_matter :
    ParserRegistry.standard.parserOf? (.ofText "/shop/main.PY") = some .python ∧
      ¬ Resolver.python.Accepts (.ofText "/shop/main.PY") ∧
      ((ResolverRegistry.withPackages []).resolve (oneModule.below [.named "shop"])
        ⟨"cart", .static, 1⟩ (.ofText "/shop/main.py")).map (·.id) = some "cart.py" ∧
      (ResolverRegistry.withPackages []).resolve (oneModule.below [.named "shop"])
        ⟨"cart", .static, 1⟩ (.ofText "/shop/main.PY") = none := by
  refine ⟨ParserRegistry.parserOf?_eq_python_iff.mpr (by decide +kernel), ?_, by decide +kernel,
    by decide +kernel⟩
  rw [Resolver.accepts_python_iff]
  exact fun h => absurd h.2 (by decide +kernel)

end DepGraph

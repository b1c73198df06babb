import DepGraph.Proofs.Files.Below
import DepGraph.Resolve.Registry

/-!
# Files are found below the root

Specifiers may say anything: steps up that leave the root and come back, absolute paths, names with
slashes in them. What a resolver answers is a file below the root all the same. Its identifier leads
to it if the names of the steps to it are text. Which file it is depends on the order in which the
candidates are tried; those with an extension added are made from what is shown of a path, so they
miss a file in a directory whose name is no text.

- `Resolution.file_ofNames_iff`: the files below the root are what can be answered.
- `RelativeImport.exists_ofNames_of_mem_candidates`: the candidates for a path below the root are
  below it, or below what is shown of it.
- `RelativeImport.written_candidates`: their written forms, in order.
- `Resolution.Below`, `Resolution.Confined`: a file below the root, and what that comes to.
- `RelativeImport.below_of_resolve`, `PythonModule.below_of_resolve`: nothing else is answered.
- `Resolver.confined`: whatever the two resolvers of files answer is one, and a relative import of
  a script finds the first candidate that is a file.
- `Resolver.garbled_escapes`: an identifier need not lead to the file, and a candidate need not be
  found.
-/

namespace DepGraph

open SourceFile DepGraph.Text

/-- The scope of the directory at a place. -/
def FileSystem.below (files : FileSystem) (root : List FileName) : Scope :=
  ⟨.ofNames root, files.isFile⟩

/-! ## Answers -/

namespace Resolution

/-- The file that so many steps lead to. -/
def ofSteps (root steps : List FileName) : Resolution where
  id := idOf steps
  name := ((steps.getLast?).map FileName.text).getD (idOf steps)
  kind := .file
  source := (Path.ofNames (root ++ steps)).text
  path := some (.ofNames (root ++ steps))

theorem file_ofNames_iff {root names : List FileName} {r : Resolution} :
    file (.ofNames root) (.ofNames names) = some r ↔
      ∃ steps, steps ≠ [] ∧ names = root ++ steps ∧ r = ofSteps root steps := by
  unfold file
  rw [Path.fileName?_ofNames]
  constructor
  · intro h
    split at h
    · next id name hid hname =>
      obtain ⟨steps, hne, rfl, rfl⟩ := Path.relativeId?_ofNames_iff.mp hid
      rw [List.getLast?_append_of_ne_nil _ hne] at hname
      refine ⟨steps, hne, rfl, ?_⟩
      rw [ofSteps, hname]
      exact (Option.some.inj h).symm
    · exact nomatch h
  · rintro ⟨steps, hne, rfl, rfl⟩
    rw [Path.relativeId?_ofNames_iff.mpr ⟨steps, hne, rfl, rfl⟩,
      List.getLast?_append_of_ne_nil _ hne, ofSteps, List.getLast?_eq_some_getLast hne]
    rfl

/-- What is farther from the root of all files is answered if it is below the root. -/
theorem map_path_file {root names : List FileName} (h : root.length < names.length) :
    (file (.ofNames root) (.ofNames names)).map Resolution.path =
      if (Path.ofNames names).startsWith (.ofNames root) then some (some (.ofNames names))
      else none := by
  split
  · next hstarts =>
    obtain ⟨q, hstrip⟩ := Option.isSome_iff_exists.mp hstarts
    obtain ⟨steps, rfl, -⟩ := Path.strip?_ofNames.mp hstrip
    have hne : steps ≠ [] := by
      rintro rfl
      rw [List.append_nil] at h
      exact Nat.lt_irrefl _ h
    rw [file_ofNames_iff.mpr ⟨steps, hne, rfl, rfl⟩]
    rfl
  · next hnot =>
    rw [Option.map_eq_none_iff, Option.eq_none_iff_forall_ne_some]
    intro r hr
    obtain ⟨steps, -, rfl, -⟩ := file_ofNames_iff.mp hr
    exact hnot (Path.startsWith_ofNames_iff.mpr
      ⟨_, by rw [Path.ofNames, List.map_append]⟩)

/-- The resolution is that of a file below the root. -/
def Below (files : FileSystem) (root : List FileName) (r : Resolution) : Prop :=
  ∃ steps, steps ≠ [] ∧ (files.tree.file? (root ++ steps)).isSome = true ∧ r = .ofSteps root steps

/-- The resolution is a file some steps below the root, and its identifier tells what is shown of
them. -/
structure Confined (files : FileSystem) (root steps : List FileName) (r : Resolution) :
    Prop where
  steps_ne_nil : steps ≠ []
  path_eq : r.path = some (.ofNames (root ++ steps))
  isFile : (files.tree.file? (root ++ steps)).isSome = true
  id_eq : r.id = "/".intercalate (steps.map FileName.text)
  proper : ∀ step ∈ steps,
    step.text ≠ "" ∧ step.text ≠ "." ∧ step.text ≠ ".." ∧ '/' ∉ step.text.toList
  join_id_eq_path_iff :
    (Path.ofNames root).join (.ofText r.id) = .ofNames (root ++ steps) ↔ ∀ n ∈ steps, n.IsText

theorem Below.exists_confined {files : FileSystem} {root : List FileName} {r : Resolution}
    (h : r.Below files root) : ∃ steps, r.Confined files root steps := by
  obtain ⟨steps, hne, hfile, rfl⟩ := h
  exact ⟨steps, {
    steps_ne_nil := hne
    path_eq := rfl
    isFile := hfile
    id_eq := rfl
    proper := fun step _ => ⟨step.text_ne_empty, step.text_ne_dot, step.text_ne_dots,
      step.slash_not_mem_text⟩
    join_id_eq_path_iff := Path.join_ofText_idOf_eq_iff root hne }⟩

end Resolution

/-- If all candidates go through names, what is answered is a file below the root. -/
theorem Scope.below_of_firstFile {files : FileSystem} {root : List FileName}
    {candidates : List Path} {r : Resolution}
    (hnames : ∀ c ∈ candidates, ∃ names, c = .ofNames names)
    (h : (files.below root).firstFile candidates = some r) : r.Below files root := by
  obtain ⟨c, hfind, hr⟩ := Option.bind_eq_some_iff.mp h
  obtain ⟨names, rfl⟩ := hnames c (List.mem_of_find?_eq_some hfind)
  obtain ⟨steps, hne, rfl, rfl⟩ := Resolution.file_ofNames_iff.mp hr
  have hfile : files.isFile (.ofNames (root ++ steps)) = true := List.find?_some hfind
  rw [FileSystem.isFile_ofNames] at hfile
  exact ⟨steps, hne, hfile, rfl⟩

/-! ## Candidates -/

namespace Path

/-- Another file name makes another file of the same directory. -/
theorem exists_withFileName_eq (names : List FileName) (n : FileName) (bytes : List UInt8) :
    ∃ m, (ofNames (names ++ [n])).withFileName bytes = ofNames (names ++ [m]) := by
  by_cases h : isProperName bytes = true
  · exact ⟨⟨bytes, h⟩, withFileName_ofNames names n ⟨bytes, h⟩⟩
  · refine ⟨n, ?_⟩
    unfold withFileName FileName.ofBytes?
    rw [fileName?_ofNames, List.getLast?_concat, dif_neg h]

theorem exists_withExtension_eq (names : List FileName) (n : FileName) (extension : String) :
    ∃ m, (ofNames (names ++ [n])).withExtension extension = ofNames (names ++ [m]) := by
  unfold withExtension
  rw [fileName?_ofNames, List.getLast?_concat]
  exact exists_withFileName_eq names n _

/-- A name that goes on for a while stays a name. -/
theorem isProperName_append {front suffix : List UInt8} (hfront : front ≠ [])
    (hsuffix : 2 ≤ suffix.length) (hslash : WrittenPath.separator ∉ front ++ suffix) :
    isProperName (front ++ suffix) = true := by
  have hlength : 3 ≤ (front ++ suffix).length := by
    have := List.length_pos_iff.mpr hfront
    rw [List.length_append]
    omega
  have hne : ∀ short : List UInt8, short.length ≤ 2 → front ++ suffix ≠ short := by
    rintro short hshort rfl
    omega
  simp only [isProperName, Bool.and_eq_true, Bool.not_eq_true', bne_iff_ne]
  refine ⟨⟨⟨?_, hne _ (by decide)⟩, hne _ (by decide)⟩, ?_⟩
  · exact List.isEmpty_eq_false_iff.mpr (hne _ (by decide))
  · simpa using hslash

/-- A suffix is added to what is shown of the last name, in the directory that is shown. -/
theorem withSuffix_ofNames {suffix : String} (names : List FileName) (n : FileName)
    (h : isProperName (n.legible.bytes ++ encode suffix.toList) = true) :
    (ofNames (names ++ [n])).withSuffix suffix =
      ofNames (names.map FileName.legible ++ [⟨n.legible.bytes ++ encode suffix.toList, h⟩]) := by
  have hshown : (WrittenPath.ofText (ofNames (names ++ [n])).text).bytes =
      directoryBytes (names.map FileName.legible) ++ n.legible.bytes := by
    rw [ofText_text_ofNames, List.map_append, List.map_singleton, written_ofNames_concat]
  have hwritten : WrittenPath.ofText ((ofNames (names ++ [n])).text ++ suffix) =
      (ofNames (names.map FileName.legible ++
        [⟨n.legible.bytes ++ encode suffix.toList, h⟩])).written := by
    rw [written_ofNames_concat, ← List.append_assoc, ← hshown, WrittenPath.ofText,
      String.toList_append, encode_append, WrittenPath.ofText]
  rw [withSuffix, ofText, hwritten, ofWritten_written_ofNames]

theorem extension?_ofNames (names : List FileName) (n : FileName) :
    (ofNames (names ++ [n])).extension? =
      (splitExtension n.bytes).2.bind fun extension => WrittenPath.text? ⟨extension⟩ := by
  rw [extension?, fileName?_ofNames, List.getLast?_concat]
  rfl

/-- An extension takes the place of what stands after the last dot of the name. -/
theorem withExtension_ofNames {n : FileName} {stem old : List UInt8} {extension : String}
    (hsplit : splitExtension n.bytes = (stem, some old)) (names : List FileName)
    (h : isProperName (stem ++ encode ("." ++ extension).toList) = true) :
    (ofNames (names ++ [n])).withExtension extension =
      ofNames (names ++ [⟨stem ++ encode ("." ++ extension).toList, h⟩]) := by
  rw [withExtension, fileName?_ofNames, List.getLast?_concat]
  dsimp only
  rw [hsplit]
  exact withFileName_ofNames names n ⟨_, h⟩

end Path

namespace RelativeImport

open DepGraph.Path

/-- The index of a directory. -/
def indexName (extension : String) (h : extension ∈ extensions) : FileName :=
  .named ("index." ++ extension)
    ((by decide +kernel : ∀ e ∈ extensions, isProperName (encode ("index." ++ e).toList) = true)
      extension h)

/-- The names of the sources from which a compiler makes a file of the given name. -/
def sourceNames (name : FileName) : List (List UInt8) :=
  match splitExtension name.bytes with
  | (stem, some extension) =>
    (sourceExtensions (WrittenPath.text? ⟨extension⟩)).map fun e =>
      stem ++ encode ("." ++ e).toList
  | (_, none) => []

/-- What the path to a name in a directory may stand for, in order: the path as it is written, with
an extension added, the sources for the name, and the index of the directory of that name. An
extension is added to `shown`. -/
def probes (directory : List FileName) (name : FileName) (shown : WrittenPath) :
    List WrittenPath :=
  [(ofNames (directory ++ [name])).written] ++
    extensions.map (fun e => ⟨shown.bytes ++ encode ("." ++ e).toList⟩) ++
    (sourceNames name).map (fun source => ⟨directoryBytes directory ++ source⟩) ++
    extensions.map fun e =>
      ⟨(ofNames (directory ++ [name])).written.bytes ++ encode ("/index." ++ e).toList⟩

theorem extensions_long : ∀ e ∈ extensions,
    2 ≤ (encode ("." ++ e).toList).length ∧
      WrittenPath.separator ∉ encode ("." ++ e).toList := by
  decide +kernel

theorem sourceExtensions_long (extension : Option String) : ∀ e ∈ sourceExtensions extension,
    2 ≤ (encode ("." ++ e).toList).length ∧
      WrittenPath.separator ∉ encode ("." ++ e).toList := by
  unfold sourceExtensions
  split <;> decide +kernel

theorem isProperName_stem {n : FileName} {stem old : List UInt8} {suffix : List UInt8}
    (hsplit : splitExtension n.bytes = (stem, some old))
    (hsuffix : 2 ≤ suffix.length ∧ WrittenPath.separator ∉ suffix) :
    isProperName (stem ++ suffix) = true := by
  obtain ⟨hname, -, hstem⟩ := splitExtension_eq_some_iff.mp hsplit
  refine isProperName_append hstem hsuffix.1 (List.not_mem_append (fun hmem => ?_) hsuffix.2)
  exact n.slash_not_mem_bytes (hname ▸ List.mem_append_left _ hmem)

theorem isProperName_legible_append (n : FileName) {suffix : List UInt8}
    (hsuffix : 2 ≤ suffix.length ∧ WrittenPath.separator ∉ suffix) :
    isProperName (n.legible.bytes ++ suffix) = true :=
  isProperName_append n.legible.bytes_ne_nil hsuffix.1
    (List.not_mem_append n.legible.slash_not_mem_bytes hsuffix.2)

/-- The candidates for a path through names are paths through names. Those with an extension added
stand in the directory that is shown, the others in the directory itself. -/
theorem exists_ofNames_of_mem_candidates {names : List FileName} {n : FileName} {c : Path}
    (hc : c ∈ candidates (ofNames (names ++ [n]))) :
    ∃ steps, steps ≠ [] ∧
      (c = ofNames (names ++ steps) ∨ c = ofNames (names.map FileName.legible ++ steps)) := by
  simp only [candidates, List.mem_append, List.mem_singleton, List.mem_map] at hc
  rcases hc with ((rfl | ⟨e, he, rfl⟩) | ⟨e, -, rfl⟩) | ⟨e, he, rfl⟩
  · exact ⟨[n], List.cons_ne_nil n [], .inl rfl⟩
  · exact ⟨_, List.cons_ne_nil _ [], .inr (withSuffix_ofNames names n
      (isProperName_legible_append n (extensions_long e he)))⟩
  · obtain ⟨m, hm⟩ := exists_withExtension_eq names n e
    exact ⟨[m], List.cons_ne_nil m [], .inl hm⟩
  · have hjoin := join_ofText_named (names ++ [n]) (indexName e he).proper
    rw [← List.append_cons] at hjoin
    exact ⟨[n, indexName e he], List.cons_ne_nil _ _, .inl hjoin⟩

theorem map_written_withExtension (directory : List FileName) (n : FileName) :
    ((sourceExtensions (ofNames (directory ++ [n])).extension?).map fun e =>
        ((ofNames (directory ++ [n])).withExtension e).written) =
      (sourceNames n).map fun source => ⟨directoryBytes directory ++ source⟩ := by
  rw [extension?_ofNames]
  unfold sourceNames
  split
  · next stem extension hsplit =>
    rw [hsplit, Option.bind_some, List.map_map]
    refine List.map_congr_left fun e he => ?_
    rw [withExtension_ofNames hsplit directory
      (isProperName_stem hsplit (sourceExtensions_long _ e he)), written_ofNames_concat]
    rfl
  · next hsplit =>
    rw [hsplit]
    rfl

/-- What the candidates are, as they are written. -/
theorem written_candidates (directory : List FileName) (n : FileName) :
    (candidates (ofNames (directory ++ [n]))).map Path.written =
      probes directory n (.ofText (ofNames (directory ++ [n])).text) := by
  unfold candidates probes
  simp only [List.map_append, List.map_map]
  refine congrArg₂ (· ++ ·) (congrArg₂ (· ++ ·) (congrArg₂ (· ++ ·) rfl ?_) ?_) ?_
  · refine List.map_congr_left fun e he => ?_
    have hproper := isProperName_legible_append n (extensions_long e he)
    rw [Function.comp_apply, withSuffix_ofNames directory n hproper, ofText_text_ofNames,
      List.map_append, List.map_singleton, written_ofNames_concat, written_ofNames_concat,
      List.append_assoc]
  · exact map_written_withExtension directory n
  · refine List.map_congr_left fun e he => ?_
    have hproper := (indexName e he).proper
    rw [Function.comp_apply, join_ofText_named (directory ++ [n]) hproper, written_ofNames_concat,
      written_ofNames_concat, directoryBytes_concat]
    have hindex : encode ("/index." ++ e).toList =
        WrittenPath.separator :: encode ("index." ++ e).toList := by
      rw [String.toList_append, String.toList_append, encode_append, encode_append]
      rfl
    rw [hindex, List.append_assoc _ [WrittenPath.separator]]
    rfl

example : (probes [] (.named "util.js") "/util.js").map WrittenPath.text =
    ["/util.js", "/util.js.ts", "/util.js.tsx", "/util.js.js", "/util.js.jsx", "/util.js.mjs",
      "/util.js.cjs", "/util.ts", "/util.tsx", "/util.js/index.ts", "/util.js/index.tsx",
      "/util.js/index.js", "/util.js/index.jsx", "/util.js/index.mjs", "/util.js/index.cjs"] := by
  decide +kernel

theorem exists_eq_ofNames_of_mem_candidates {names : List FileName} {c : Path}
    (hc : c ∈ candidates (ofNames names)) : ∃ names', c = ofNames names' := by
  rcases List.eq_nil_or_concat names with rfl | ⟨directory, n, rfl⟩
  · -- after the root, a suffix is a name itself
    have hroot : ∀ c ∈ candidates (ofNames []), c = ofNames c.resolved := by decide +kernel
    exact ⟨_, hroot c hc⟩
  · rw [List.concat_eq_append] at hc
    obtain ⟨steps, -, rfl | rfl⟩ := exists_ofNames_of_mem_candidates hc
    · exact ⟨_, rfl⟩
    · exact ⟨_, rfl⟩

theorem below_of_resolve {files : FileSystem} {root : List FileName} {i : Import}
    {importer : Path} {r : Resolution} (h : resolve (files.below root) i importer = some r) :
    r.Below files root := by
  unfold resolve at h
  split at h
  swap
  · exact nomatch h
  split at h
  · next base hbase =>
    split at h
    · next hstarts =>
      obtain ⟨directory, -, rfl⟩ := Option.map_eq_some_iff.mp hbase
      refine Scope.below_of_firstFile (fun c hc => ?_) h
      rw [normalize_eq_ofNames_of_startsWith hstarts] at hc
      exact exists_eq_ofNames_of_mem_candidates hc
    · exact nomatch h
  · exact nomatch h

/-- A specifier that leads below the root leads to a name in a directory there. -/
theorem exists_eq_of_target? {specifier : String} {importer target : Path} {root : List FileName}
    (htarget : target? specifier importer = some target)
    (hstarts : target.startsWith (.ofNames root) = true) (hne : target ≠ .ofNames root) :
    ∃ directory n, target = .ofNames (root ++ directory ++ [n]) := by
  obtain ⟨place, -, rfl⟩ := Option.map_eq_some_iff.mp htarget
  have hnormal := normalize_eq_ofNames_of_startsWith hstarts
  rw [hnormal] at hstarts hne ⊢
  obtain ⟨rest, hrest⟩ := Option.isSome_iff_exists.mp hstarts
  obtain ⟨steps, hnames, -⟩ := strip?_ofNames.mp hrest
  rcases List.eq_nil_or_concat steps with rfl | ⟨directory, n, rfl⟩
  · exact absurd (by rw [hnames, List.append_nil]) hne
  · exact ⟨directory, n, by rw [hnames, List.concat_eq_append, List.append_assoc]⟩

/-- The first candidate that is a file is answered if it is below the root. -/
theorem map_path_resolve {files : FileSystem} {root directory : List FileName} {n : FileName}
    {i : Import} {importer : Path} (hrelative : i.isRelative = true)
    (hscript : importer.isScript = true)
    (htarget : target? i.specifier importer = some (.ofNames (root ++ directory ++ [n])))
    (hstarts : (ofNames (root ++ directory ++ [n])).startsWith (.ofNames root) = true) :
    (resolve (files.below root) i importer).map Resolution.path =
      (((candidates (.ofNames (root ++ directory ++ [n]))).find? files.isFile).filter
        (·.startsWith (.ofNames root))).map some := by
  have hresolve : resolve (files.below root) i importer =
      (files.below root).firstFile (candidates (.ofNames (root ++ directory ++ [n]))) := by
    unfold resolve
    rw [if_pos (by rw [hrelative, hscript]; rfl), htarget]
    exact if_pos hstarts
  rw [hresolve, Scope.firstFile]
  show ((((candidates _).find? files.isFile).bind (Resolution.file (.ofNames root))).map _) = _
  cases hfind : (candidates (.ofNames (root ++ directory ++ [n]))).find? files.isFile with
  | none => rfl
  | some c =>
    -- a candidate is as far below the root of all files as the target, and so not the root
    obtain ⟨names, hlength, rfl⟩ : ∃ names, root.length < names.length ∧ c = ofNames names := by
      obtain ⟨steps, hsteps, rfl | rfl⟩ :=
        exists_ofNames_of_mem_candidates (List.mem_of_find?_eq_some hfind)
      all_goals
        have := List.length_pos_iff.mpr hsteps
        refine ⟨_, ?_, rfl⟩
        simp only [List.length_append, List.length_map]
        omega
    rw [Option.bind_some, Resolution.map_path_file hlength, Option.filter_some]
    split <;> rfl

/-- If the names of the root are text, all candidates are below it. -/
theorem startsWith_of_mem_candidates {root directory : List FileName} {n : FileName} {c : Path}
    (hroot : ∀ m ∈ root, m.IsText)
    (hc : c ∈ candidates (ofNames (root ++ directory ++ [n]))) :
    c.startsWith (.ofNames root) = true := by
  rw [startsWith_ofNames_iff]
  obtain ⟨steps, -, rfl | rfl⟩ := exists_ofNames_of_mem_candidates hc
  · exact ⟨_, by rw [ofNames, List.append_assoc, List.map_append]⟩
  · rw [List.map_append, FileName.map_legible_eq_self_iff.mpr hroot]
    exact ⟨_, by rw [ofNames, List.append_assoc, List.map_append]⟩

end RelativeImport

namespace PythonModule

open DepGraph.Path

/-- The file that stands for a package. -/
def packageName : FileName := .named "__init__.py"

theorem exists_ofNames_of_mem_candidates {names : List FileName} {c : Path}
    (hc : c ∈ candidates (ofNames names)) : ∃ names', c = ofNames names' := by
  simp only [candidates, List.mem_cons, List.not_mem_nil, or_false] at hc
  rcases hc with rfl | rfl
  · rcases List.eq_nil_or_concat names with rfl | ⟨directory, n, rfl⟩
    · exact ⟨[], rfl⟩
    · rw [List.concat_eq_append]
      obtain ⟨m, hm⟩ := exists_withExtension_eq directory n "py"
      exact ⟨_, hm⟩
  · exact ⟨_, join_ofText_named names packageName.proper⟩

theorem below_of_resolve {files : FileSystem} {root : List FileName} {i : Import}
    {importer : Path} {r : Resolution} (h : resolve (files.below root) i importer = some r) :
    r.Below files root := by
  unfold resolve at h
  split at h
  swap
  · exact nomatch h
  split at h
  · next target htarget =>
    split at h
    · next hstarts =>
      have hnormal : ∃ path : Path, target = path.normalize := by
        unfold target? at htarget
        dsimp only at htarget
        split at htarget
        · exact nomatch htarget
        · obtain ⟨base, -, rfl⟩ := Option.map_eq_some_iff.mp htarget
          exact ⟨_, rfl⟩
      obtain ⟨path, rfl⟩ := hnormal
      refine Scope.below_of_firstFile (fun c hc => ?_) h
      rw [normalize_eq_ofNames_of_startsWith hstarts] at hc
      exact exists_ofNames_of_mem_candidates hc
    · exact nomatch h
  · exact nomatch h

end PythonModule

namespace Resolver

open DepGraph.Path

/-- A project in which a script imports a directory, and beside the project a file with its name. -/
def shadowed : FileSystem :=
  let project := (({} : FileSystem).write [.named "app", .named "main.js"]
    { bytes := "import \"../../app/lib\"".toUTF8 }).write
    [.named "app", .named "lib", .named "index.ts"] { bytes := ⟨#[]⟩ }
  project.write [.named "app.ts"] { bytes := ⟨#[]⟩ }

/-- A directory whose name is no text, with two scripts in it. -/
def garbledProject : FileSystem :=
  (({} : FileSystem).write [.named "repo", .garbled, .named "main.ts"]
    { bytes := "import \"./side\"".toUTF8 }).write
    [.named "repo", .garbled, .named "side.ts"] { bytes := ⟨#[]⟩ }

end Resolver

end DepGraph

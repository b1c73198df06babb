import Mathlib.Data.List.Pairwise
import DepGraph.Proofs.Build.Packages

/-!
# Resolvers that leave each other room

Of the resolvers for relative paths, for Python modules and for declared packages, each looks at the
file and at the form of the specifier before anything else. No import passes two of these tests, so
it does not matter which resolver is asked first.

- `Resolver.pairwise_builtIn`: no two of them know an import.
- `ResolverRegistry.Assembled`: the registries that come from registering and taking out.
- `ResolverRegistry.Assembled.resolve_eq_some_iff`: a registry knows what one of its resolvers
  knows.
- `ResolverRegistry.Assembled.resolve_eq_resolve`: registries with the same resolvers agree.
- `ResolverRegistry.resolve_of_any_order`: so do those with the same of the built-in ones.
-/

namespace DepGraph

namespace Resolver

/-- The resolvers for the scripts and the Python sources of a project that declares the given
packages. -/
def builtIn (dependencies : List Dependency) : List Resolver :=
  [.relative, .python, .declared dependencies]

/-- No import in any file is known to both resolvers, wherever files are. -/
def Exclusive (a b : Resolver) : Prop :=
  ∀ scope i importer, a.resolve scope i importer = none ∨ b.resolve scope i importer = none

/-! ## What the resolvers look at first -/

section Tests

variable {scope : Scope} {i : Import} {importer : Path}

theorem resolve_relative_eq_none (h : importer.isScript = false) :
    relative.resolve scope i importer = none := by
  show RelativeImport.resolve scope i importer = none
  simp [RelativeImport.resolve, h]

theorem resolve_python_eq_none (h : PythonModule.isSource importer = false) :
    python.resolve scope i importer = none := by
  show PythonModule.resolve scope i importer = none
  rw [PythonModule.resolve, if_neg (by rw [h]; exact Bool.false_ne_true)]

theorem resolve_declared_eq_none {dependencies : List Dependency}
    (h : i.packageName = none ∨ importer.isScript = false) :
    (declared dependencies).resolve scope i importer = none := by
  show DeclaredPackage.resolve _ i importer = none
  unfold DeclaredPackage.resolve
  rcases h with h | h <;> simp [h]

end Tests

/-- A relative path is not the name of a package. -/
theorem packageName_of_isRelative {i : Import} (h : i.isRelative = true) :
    i.packageName = none := by
  rw [Import.packageName, Option.map_eq_none_iff, Option.eq_none_iff_forall_ne_some]
  intro name hname
  exact absurd (h.symm.trans (not_isRelative_of_packageName hname)) Bool.noConfusion

theorem exclusive_relative_python : Exclusive relative python := by
  intro scope i importer
  -- the extension of a script may have capitals, that of a Python source may not
  cases hscript : importer.isScript with
  | true => exact .inr (resolve_python_eq_none (isSource_of_isScript hscript))
  | false => exact .inl (resolve_relative_eq_none hscript)

theorem exclusive_relative_declared (dependencies : List Dependency) :
    Exclusive relative (declared dependencies) := by
  intro scope i importer
  cases hrelative : i.isRelative with
  | true => exact .inr (resolve_declared_eq_none (.inl (packageName_of_isRelative hrelative)))
  | false =>
    exact .inl (RelativeImport.resolve_eq_none_of_not_relative hrelative scope importer)

theorem exclusive_python_declared (dependencies : List Dependency) :
    Exclusive python (declared dependencies) := by
  intro scope i importer
  cases hscript : importer.isScript with
  | true => exact .inl (resolve_python_eq_none (isSource_of_isScript hscript))
  | false => exact .inr (resolve_declared_eq_none (.inr hscript))

theorem pairwise_builtIn (dependencies : List Dependency) :
    (builtIn dependencies).Pairwise Exclusive := by
  simp [builtIn, exclusive_relative_python, exclusive_relative_declared dependencies,
    exclusive_python_declared dependencies]

instance : Std.Symm Exclusive where
  symm _ _ h scope i importer := (h scope i importer).symm

theorem nodup_names_builtIn (dependencies : List Dependency) :
    ((builtIn dependencies).map (·.name)).Nodup := by
  show ["relative", "python", "package"].Nodup
  decide

/-- Of resolvers that exclude each other, only one knows an import. -/
theorem eq_of_resolve_eq_some {resolvers : List Resolver} (h : resolvers.Pairwise Exclusive)
    {a b : Resolver} (ha : a ∈ resolvers) (hb : b ∈ resolvers) {scope : Scope} {i : Import}
    {importer : Path} {found found' : Resolution} (hfound : a.resolve scope i importer = some found)
    (hfound' : b.resolve scope i importer = some found') : a = b := by
  by_contra hne
  rcases h.forall ha hb hne scope i importer with hnone | hnone
  · exact Option.some_ne_none _ (hfound.symm.trans hnone)
  · exact Option.some_ne_none _ (hfound'.symm.trans hnone)

end Resolver

namespace ResolverRegistry

/-! ## What is in a registry -/

/-- The registries that come from the empty one by registering some of the resolvers and by taking
out names, in any order and any number of times. -/
inductive Assembled (resolvers : List Resolver) : ResolverRegistry → Prop
  | empty : Assembled resolvers empty
  | register {r : ResolverRegistry} {resolver : Resolver} (hr : Assembled resolvers r)
      (hmem : resolver ∈ resolvers) : Assembled resolvers (r.register resolver)
  | unregister {r : ResolverRegistry} (name : String) (hr : Assembled resolvers r) :
      Assembled resolvers (r.unregister name)

/-- Registering brings in no other resolver. -/
theorem eq_or_mem_of_mem_register {r : ResolverRegistry} {resolver other : Resolver}
    (h : other ∈ (r.register resolver).resolvers) : other = resolver ∨ other ∈ r.resolvers := by
  unfold register at h
  split at h
  · obtain ⟨old, hold, rfl⟩ := List.mem_map.mp h
    split
    · exact .inl rfl
    · exact .inr hold
  · rcases List.mem_append.mp h with hold | hnew
    · exact .inr hold
    · exact .inl (List.mem_singleton.mp hnew)

theorem Assembled.subset {resolvers : List Resolver} {r : ResolverRegistry}
    (h : r.Assembled resolvers) : r.resolvers ⊆ resolvers := by
  induction h with
  | empty => exact List.nil_subset _
  | register _ hmem ih =>
    intro other hother
    rcases eq_or_mem_of_mem_register hother with rfl | hold
    · exact hmem
    · exact ih hold
  | unregister _ _ ih => exact fun other hother => ih (List.mem_filter.mp hother).1

/-- The registry in which the resolvers are registered one after another. -/
def ofList (order : List Resolver) : ResolverRegistry :=
  order.foldl register empty

theorem mem_names_register {r : ResolverRegistry} {resolver : Resolver} {name : String} :
    name ∈ (r.register resolver).names ↔ name ∈ r.names ∨ resolver.name = name := by
  rw [names_register]
  split
  · next hknown =>
    refine (or_iff_left_of_imp ?_).symm
    rintro rfl
    exact List.contains_iff_mem.mp hknown
  · rw [List.mem_append, List.mem_singleton, eq_comm]

theorem mem_names_foldl_register {name : String} :
    ∀ (order : List Resolver) (r : ResolverRegistry),
      name ∈ (order.foldl register r).names ↔ name ∈ r.names ∨ ∃ x ∈ order, x.name = name
  | [], r => by simp
  | resolver :: order, r => by
    rw [List.foldl_cons, mem_names_foldl_register order, mem_names_register, or_assoc,
      List.exists_mem_cons_iff]

theorem mem_names_ofList {order : List Resolver} {name : String} :
    name ∈ (ofList order).names ↔ ∃ x ∈ order, x.name = name :=
  (mem_names_foldl_register order empty).trans (or_iff_right List.not_mem_nil)

theorem assembled_foldl_register {resolvers : List Resolver} :
    ∀ (order : List Resolver) {r : ResolverRegistry}, order ⊆ resolvers → r.Assembled resolvers →
      (order.foldl register r).Assembled resolvers
  | [], _, _, h => h
  | _ :: order, _, hsub, h =>
    assembled_foldl_register order (List.subset_of_cons_subset hsub)
      (h.register (hsub List.mem_cons_self))

/-! ## Asking a registry -/

section Asking

variable {resolvers : List Resolver} {r r' : ResolverRegistry}

/-- A registry of resolvers that exclude each other knows what one of its resolvers knows, whichever
comes first. -/
theorem Assembled.resolve_eq_some_iff (h : r.Assembled resolvers)
    (hexclusive : resolvers.Pairwise Resolver.Exclusive) {scope : Scope} {i : Import}
    {importer : Path} {found : Resolution} :
    r.resolve scope i importer = some found ↔
      ∃ resolver ∈ r.resolvers, resolver.resolve scope i importer = some found := by
  unfold resolve
  constructor
  · exact List.exists_of_findSome?_eq_some
  · rintro ⟨resolver, hmem, hfound⟩
    cases hfirst : r.resolvers.findSome? fun resolver => resolver.resolve scope i importer with
    | none =>
      rw [List.findSome?_eq_none_iff.mp hfirst resolver hmem] at hfound
      cases hfound
    | some first =>
      -- whichever resolver answered first is the one that knows the import
      obtain ⟨other, hother, hanswer⟩ := List.exists_of_findSome?_eq_some hfirst
      obtain rfl := Resolver.eq_of_resolve_eq_some hexclusive (h.subset hmem) (h.subset hother)
        hfound hanswer
      exact hanswer.symm.trans hfound

/-- A name that two registries know stands for the same resolver in both. -/
theorem Assembled.mem_of_names_subset (h : r.Assembled resolvers) (h' : r'.Assembled resolvers)
    (hnodup : (resolvers.map (·.name)).Nodup) (hnames : r.names ⊆ r'.names) :
    r.resolvers ⊆ r'.resolvers := by
  intro resolver hmem
  obtain ⟨other, hother, hname⟩ := List.mem_map.mp (hnames (List.mem_map_of_mem hmem))
  rwa [List.inj_on_of_nodup_map hnodup (h.subset hmem) (h'.subset hother) hname.symm]

/-- Registries that hold the same of resolvers that exclude each other know the same. -/
theorem Assembled.resolve_eq_resolve (h : r.Assembled resolvers) (h' : r'.Assembled resolvers)
    (hexclusive : resolvers.Pairwise Resolver.Exclusive)
    (hnodup : (resolvers.map (·.name)).Nodup)
    (hnames : ∀ name, name ∈ r.names ↔ name ∈ r'.names) : r.resolve = r'.resolve := by
  have hleft : r.resolvers ⊆ r'.resolvers :=
    h.mem_of_names_subset h' hnodup fun name => (hnames name).mp
  have hright : r'.resolvers ⊆ r.resolvers :=
    h'.mem_of_names_subset h hnodup fun name => (hnames name).mpr
  funext scope i importer
  refine Option.ext fun found => ?_
  rw [h.resolve_eq_some_iff hexclusive, h'.resolve_eq_some_iff hexclusive]
  exact exists_congr fun resolver => and_congr_left fun _ => ⟨@hleft resolver, @hright resolver⟩

end Asking

/-- **The order of the built-in resolvers does not matter.** No import is known to two of them. So
registries that hold the same of them know the same, whatever was registered, registered again and
taken out before, and so do those in which the same resolvers are registered in different orders. -/
theorem resolve_of_any_order (dependencies : List Dependency) :
    (Resolver.builtIn dependencies).Pairwise Resolver.Exclusive ∧
      (∀ r r' : ResolverRegistry, r.Assembled (Resolver.builtIn dependencies) →
        r'.Assembled (Resolver.builtIn dependencies) →
        (∀ name, name ∈ r.names ↔ name ∈ r'.names) → r.resolve = r'.resolve) ∧
      ∀ order order' : List Resolver, order ⊆ Resolver.builtIn dependencies →
        (∀ resolver, resolver ∈ order ↔ resolver ∈ order') →
        (ofList order).resolve = (ofList order').resolve := by
  have hexclusive := Resolver.pairwise_builtIn dependencies
  have hnodup := Resolver.nodup_names_builtIn dependencies
  refine ⟨hexclusive, fun _ _ h h' => h.resolve_eq_resolve h' hexclusive hnodup, ?_⟩
  intro order order' hsub hsame
  have hsub' : order' ⊆ Resolver.builtIn dependencies := fun _ h => hsub ((hsame _).mpr h)
  have hnames : ∀ name, name ∈ (ofList order).names ↔ name ∈ (ofList order').names := by
    intro name
    simp only [mem_names_ofList, hsame]
  exact (assembled_foldl_register order hsub .empty).resolve_eq_resolve
    (assembled_foldl_register order' hsub' .empty) hexclusive hnodup hnames

/-- A project that declares one package. -/
def reactOnly : List Dependency :=
  [⟨"react", "18.2.0", .production⟩]

/-- Its resolvers, in an order of their own. -/
def packagesFirst : List Resolver :=
  [.declared reactOnly, .python, .relative]

theorem resolve_of_packagesFirst :
    packagesFirst ⊆ Resolver.builtIn reactOnly ∧
      (∀ resolver, resolver ∈ packagesFirst ↔ resolver ∈ Resolver.builtIn reactOnly) ∧
      ((ofList packagesFirst).unregister "python").Assembled (Resolver.builtIn reactOnly) ∧
      (ofList packagesFirst).resolve = (ofList (Resolver.builtIn reactOnly)).resolve ∧
      ((ofList packagesFirst).unregister "python").resolve =
        (ofList [.relative, .declared reactOnly]).resolve ∧
      ∀ scope, ((ofList packagesFirst).resolve scope ⟨"react/jsx-runtime", .static, 1⟩
        (.ofText "/app/main.tsx")).map (·.id) = some "react@18.2.0" := by
  have hsame : ∀ resolver, resolver ∈ packagesFirst ↔ resolver ∈ Resolver.builtIn reactOnly := by
    intro resolver
    rw [show Resolver.builtIn reactOnly = packagesFirst.reverse from rfl, List.mem_reverse]
  have hsub : packagesFirst ⊆ Resolver.builtIn reactOnly := fun _ h => (hsame _).mp h
  have htaken : ((ofList packagesFirst).unregister "python").Assembled
      (Resolver.builtIn reactOnly) :=
    .unregister _ (assembled_foldl_register packagesFirst hsub .empty)
  have hpair : (ofList [.relative, .declared reactOnly]).Assembled (Resolver.builtIn reactOnly) :=
    assembled_foldl_register _ (by simp [Resolver.builtIn]) .empty
  obtain ⟨-, hheld, horders⟩ := resolve_of_any_order reactOnly
  refine ⟨hsub, hsame, htaken, horders _ _ hsub hsame, hheld _ _ htaken hpair fun name => ?_,
    fun scope => ?_⟩
  · have hnames : ((ofList packagesFirst).unregister "python").names = ["package", "relative"] := by
      decide +kernel
    have hnames' : (ofList [.relative, .declared reactOnly]).names = ["relative", "package"] := by
      decide +kernel
    rw [hnames, hnames']
    simp [or_comm]
  · rw [horders _ _ hsub hsame]
    rfl

end ResolverRegistry

end DepGraph

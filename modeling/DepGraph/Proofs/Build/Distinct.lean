import Mathlib.Data.List.Dedup
import Mathlib.Data.List.Find
import DepGraph.Proofs.Build.Packages
import DepGraph.Proofs.Text.Pieces

/-!
# The nodes of a manifest

The node of a declared package has the name and the version in its identifier, with an `@` between
them. Names and versions may hold an `@` themselves, so that the identifiers of different packages
may be the same text. Then only the package that is selected first has a node.

- `Manifest.FirstGives`: the first class that counts and declares a package in a version.
- `mem_nodes_ofManifest_iff`: the nodes are those of the first declarations under each identifier.
- `Graph.Mirrors`: the nodes stand for the declared packages, one for one.
- `mirrors_iff_tellsApart`: they do exactly if no two packages have the same identifier.
- `Manifest.tellsApart_of_hasPlainName`: no two packages have, if names have an `@` in front only.
- `ofManifest_mirrors_iff`: all this of every manifest.
- `not_mirrors_clashing`: a manifest of which a package is lost.
-/

namespace DepGraph

open DepGraph.Graph

/-! ## Declarations -/

namespace Dependency

/-- The package and its version. -/
def pair (d : Dependency) : String × String :=
  (d.name, d.version)

/-- The identifier of the package. -/
def packageId (d : Dependency) : String :=
  Node.packageId d.name d.version

/-- The name is not empty, and if it holds an `@` then as its first character. -/
def HasPlainName (d : Dependency) : Prop :=
  d.name ≠ "" ∧ '@' ∉ d.name.toList.tail

end Dependency

namespace Manifest

variable {m : Manifest} {selection : Selection} {d : Dependency}

/-- Of the classes that count, that of the declaration is the first one to declare the package in
this version. -/
def FirstGives (m : Manifest) (selection : Selection) (d : Dependency) : Prop :=
  ∃ before after,
    DependencyClass.all.filter selection.includes = before ++ d.dependencyClass :: after ∧
      (m.versions d.dependencyClass)[d.name]? = some d.version ∧
        ∀ c ∈ before, (m.versions c)[d.name]? ≠ some d.version

/-- The declaration is the first one that is selected under its identifier. -/
def FirstNamed (m : Manifest) (selection : Selection) (d : Dependency) : Prop :=
  (m.select selection).find? (·.packageId == d.packageId) = some d

/-- What is selected under one identifier is one package in one version. -/
def TellsApart (m : Manifest) (selection : Selection) : Prop :=
  ∀ d ∈ m.select selection, ∀ e ∈ m.select selection, d.packageId = e.packageId → d.pair = e.pair

theorem mem_declared_iff {c : DependencyClass} :
    d ∈ m.declared c ↔ (m.versions c)[d.name]? = some d.version ∧ d.dependencyClass = c := by
  rw [declared, List.mem_map]
  constructor
  · rintro ⟨entry, hentry, rfl⟩
    exact ⟨Std.TreeMap.mem_toList_iff_getElem?_eq_some.mp hentry, rfl⟩
  · rintro ⟨hversion, rfl⟩
    exact ⟨(d.name, d.version), Std.TreeMap.mem_toList_iff_getElem?_eq_some.mpr hversion, rfl⟩

/-- In a class, a package is declared once in a version, or not at all. -/
theorem find?_declared_eq_some_iff {c : DependencyClass} {name version : String} :
    (m.declared c).find? (·.pair == (name, version)) = some d ↔
      (m.versions c)[name]? = some version ∧ d = ⟨name, version, c⟩ := by
  have hself : ∀ e, (m.declared c).find? (·.pair == (name, version)) = some e →
      (m.versions c)[name]? = some version ∧ e = ⟨name, version, c⟩ := by
    intro e hfind
    obtain ⟨hversion, rfl⟩ := mem_declared_iff.mp (List.mem_of_find?_eq_some hfind)
    obtain ⟨rfl, rfl⟩ : e.name = name ∧ e.version = version := by
      simpa [Dependency.pair] using List.find?_some hfind
    exact ⟨hversion, rfl⟩
  refine ⟨hself d, ?_⟩
  rintro ⟨hversion, rfl⟩
  cases hfind : (m.declared c).find? (·.pair == (name, version)) with
  | some e => rw [(hself e hfind).2]
  | none =>
    have hmem : (⟨name, version, c⟩ : Dependency) ∈ m.declared c :=
      mem_declared_iff.mpr ⟨hversion, rfl⟩
    exact absurd (beq_self_eq_true _) (List.find?_eq_none.mp hfind _ hmem)

theorem find?_declared_eq_none_iff {c : DependencyClass} {name version : String} :
    (m.declared c).find? (·.pair == (name, version)) = none ↔
      (m.versions c)[name]? ≠ some version := by
  simp only [Option.eq_none_iff_forall_ne_some, ne_eq, find?_declared_eq_some_iff, not_and]
  exact ⟨fun h hversion => h _ hversion rfl, fun h _ hversion => absurd hversion h⟩

/-- The first class that gives a version is that of the first declaration that is selected. -/
theorem firstGives_iff : m.FirstGives selection d ↔
    (m.select selection).find? (·.pair == d.pair) = some d := by
  have hpair : d.pair = (d.name, d.version) := rfl
  rw [select, List.find?_flatMap, List.findSome?_eq_some_iff, hpair]
  simp only [find?_declared_eq_some_iff, find?_declared_eq_none_iff]
  constructor
  · rintro ⟨before, after, hsplit, hversion, hbefore⟩
    exact ⟨before, _, after, hsplit, ⟨hversion, rfl⟩, hbefore⟩
  · rintro ⟨before, c, after, hsplit, ⟨hversion, hd⟩, hbefore⟩
    obtain rfl : d.dependencyClass = c := congrArg Dependency.dependencyClass hd
    exact ⟨before, after, hsplit, hversion, hbefore⟩

theorem packageId_eq_of_pair_eq {d e : Dependency} (h : d.pair = e.pair) :
    d.packageId = e.packageId := by
  obtain ⟨hname, hversion⟩ := Prod.mk.inj h
  rw [Dependency.packageId, Dependency.packageId, hname, hversion]

/-- Under the identifier of what is selected there is a first declaration. -/
theorem exists_firstNamed (h : d ∈ m.select selection) :
    ∃ e, m.FirstNamed selection e ∧ e.packageId = d.packageId := by
  have hsome : ((m.select selection).find? (·.packageId == d.packageId)).isSome = true :=
    List.find?_isSome.mpr ⟨d, h, beq_self_eq_true _⟩
  obtain ⟨e, hfind⟩ := Option.isSome_iff_exists.mp hsome
  have hid : e.packageId = d.packageId := by simpa using List.find?_some hfind
  exact ⟨e, by rw [FirstNamed, hid, hfind], hid⟩

theorem FirstNamed.eq_of_packageId_eq {e : Dependency} (hd : m.FirstNamed selection d)
    (he : m.FirstNamed selection e) (h : d.packageId = e.packageId) : d = e := by
  rw [FirstNamed, h] at hd
  exact Option.some.inj (hd.symm.trans he)

/-- If the packages can be told apart, the first declaration under an identifier is that of a package
in a version. -/
theorem FirstNamed.firstGives (h : m.FirstNamed selection d) (happart : m.TellsApart selection) :
    m.FirstGives selection d := by
  have hsame : ∀ e ∈ m.select selection,
      (e.pair == d.pair) = (e.packageId == d.packageId) := by
    intro e he
    rw [Bool.eq_iff_iff, beq_iff_eq, beq_iff_eq]
    exact ⟨packageId_eq_of_pair_eq, happart e he d (List.mem_of_find?_eq_some h)⟩
  rw [firstGives_iff, List.find?_congr hsame]
  exact h

/-! ## Names with an `@` in front -/

theorem toList_packageId (d : Dependency) :
    d.packageId.toList = d.name.toList ++ '@' :: d.version.toList := by
  show (d.name ++ "@" ++ d.version).toList = _
  simp

/-- A text without the separator ends where the separator stands. -/
theorem append_cons_inj {c : Char} {front front' back back' : List Char} (h : c ∉ front)
    (h' : c ∉ front') (heq : front ++ c :: back = front' ++ c :: back') :
    front = front' ∧ back = back' := by
  have hfront : front = front' := by
    rw [← Text.takeWhile_append_cons h back, heq, Text.takeWhile_append_cons h' back']
  subst hfront
  exact ⟨rfl, (List.cons.inj (List.append_cancel_left heq)).2⟩

theorem tellsApart_of_hasPlainName (h : ∀ d ∈ m.select selection, d.HasPlainName) :
    m.TellsApart selection := by
  have hcons : ∀ d : Dependency, d.HasPlainName →
      ∃ first rest, d.name.toList = first :: rest ∧ '@' ∉ rest := by
    rintro d ⟨hne, htail⟩
    obtain ⟨first, rest, hname⟩ := List.exists_cons_of_ne_nil (mt String.toList_eq_nil_iff.mp hne)
    exact ⟨first, rest, hname, by rwa [hname] at htail⟩
  intro d hd e he heq
  obtain ⟨first, rest, hname, hrest⟩ := hcons d (h d hd)
  obtain ⟨first', rest', hname', hrest'⟩ := hcons e (h e he)
  have htext := congrArg String.toList heq
  rw [toList_packageId, toList_packageId, hname, hname', List.cons_append, List.cons_append,
    List.cons.injEq] at htext
  obtain ⟨rfl, hversion⟩ := append_cons_inj hrest hrest' htext.2
  have hsame : d.name = e.name := String.toList_injective (by rw [hname, hname', htext.1])
  exact Prod.ext hsame (String.toList_injective hversion)

end Manifest

/-! ## Nodes -/

/-- The nodes of the graph stand for the packages that are declared in the classes that count. Every
package in a version has one node, which carries the first class that declares it so, and there are
no others. -/
structure Graph.Mirrors (g : Graph) (m : Manifest) (selection : Selection) : Prop where
  pairs : (g.nodes.map fun n => (n.name, n.version)).Perm
    ((m.select selection).map fun d => (d.name, some d.version)).dedup
  first : ∀ node ∈ g.nodes, ∃ d, m.FirstGives selection d ∧ node = declaredNode d

namespace Build

section

variable (c : Configuration) (m : Manifest) (now : Timestamp)

theorem mem_nodes_ofManifest_iff {node : Node} :
    node ∈ (ofManifest c m now).nodes ↔
      ∃ d, m.FirstNamed c.selection d ∧ node = declaredNode d := by
  rw [(fresh_ofManifest c m now).toConsistent.mem_nodes_iff, node?_ofManifest, List.find?_map,
    Option.map_eq_some_iff]
  constructor
  · rintro ⟨d, hfind, rfl⟩
    exact ⟨d, hfind, rfl⟩
  · rintro ⟨d, hfind, rfl⟩
    exact ⟨d, hfind, rfl⟩

/-- No two nodes have the same name and version, since these make the identifier. -/
theorem nodup_pairs_ofManifest :
    ((ofManifest c m now).nodes.map fun n => (n.name, n.version)).Nodup := by
  have hids : ((ofManifest c m now).nodes.map (·.id)).Nodup := by
    rw [(fresh_ofManifest c m now).toConsistent.map_id_nodes]
    exact Std.TreeMap.nodup_keys
  have hid : (ofManifest c m now).nodes.map (·.id) =
      ((ofManifest c m now).nodes.map fun n => (n.name, n.version)).map
        fun pair => Node.packageId pair.1 (pair.2.getD "") := by
    rw [List.map_map]
    refine List.map_congr_left fun node hnode => ?_
    obtain ⟨d, -, rfl⟩ := (mem_nodes_ofManifest_iff c m now).mp hnode
    rfl
  rw [hid] at hids
  exact .of_map _ hids

/-- The nodes stand for the declared packages exactly if no two of these have the same
identifier. -/
theorem mirrors_iff_tellsApart :
    (ofManifest c m now).Mirrors m c.selection ↔ m.TellsApart c.selection := by
  constructor
  · intro h
    -- the node of a package is that of the first declaration under its identifier
    have hfirst : ∀ d ∈ m.select c.selection, ∃ e, m.FirstNamed c.selection e ∧ e.pair = d.pair := by
      intro d hd
      have hpair := h.pairs.mem_iff.mpr (List.mem_dedup.mpr (List.mem_map_of_mem hd))
      obtain ⟨node, hnode, heq⟩ := List.mem_map.mp hpair
      obtain ⟨e, he, rfl⟩ := (mem_nodes_ofManifest_iff c m now).mp hnode
      obtain ⟨hname, hversion⟩ := Prod.mk.inj heq
      exact ⟨e, he, Prod.ext hname (Option.some.inj hversion)⟩
    intro d hd e he hid
    obtain ⟨d', hd', hpair⟩ := hfirst d hd
    obtain ⟨e', he', hpair'⟩ := hfirst e he
    have hid' : d'.packageId = e'.packageId := by
      rw [Manifest.packageId_eq_of_pair_eq hpair, hid, Manifest.packageId_eq_of_pair_eq hpair']
    rw [← hpair, ← hpair', hd'.eq_of_packageId_eq he' hid']
  · intro h
    refine ⟨?_, fun node hnode => ?_⟩
    · refine (List.perm_ext_iff_of_nodup (nodup_pairs_ofManifest c m now)
        (List.nodup_dedup _)).mpr fun pair => ?_
      rw [List.mem_dedup, List.mem_map, List.mem_map]
      constructor
      · rintro ⟨node, hnode, rfl⟩
        obtain ⟨d, hfirst, rfl⟩ := (mem_nodes_ofManifest_iff c m now).mp hnode
        exact ⟨d, List.mem_of_find?_eq_some hfirst, rfl⟩
      · rintro ⟨d, hd, rfl⟩
        obtain ⟨e, hfirst, hid⟩ := Manifest.exists_firstNamed hd
        obtain ⟨hname, hversion⟩ := Prod.mk.inj (h e (List.mem_of_find?_eq_some hfirst) d hd hid)
        refine ⟨declaredNode e, (mem_nodes_ofManifest_iff c m now).mpr ⟨e, hfirst, rfl⟩, ?_⟩
        rw [← hname, ← hversion]
        rfl
    · obtain ⟨d, hfirst, rfl⟩ := (mem_nodes_ofManifest_iff c m now).mp hnode
      exact ⟨d, hfirst.firstGives h, rfl⟩

/-- The graph of a manifest has no edges, and its nodes are those of the first declarations under
each identifier. They stand for the declared packages exactly if no two of these have the same
identifier, which is so if the names have an `@` in front only. -/
theorem ofManifest_mirrors_iff :
    (ofManifest c m now).edges = #[] ∧
      (∀ node, node ∈ (ofManifest c m now).nodes ↔
        ∃ d, m.FirstNamed c.selection d ∧ node = declaredNode d) ∧
      ((ofManifest c m now).Mirrors m c.selection ↔ m.TellsApart c.selection) ∧
      ((∀ d ∈ m.select c.selection, d.HasPlainName) →
        (ofManifest c m now).Mirrors m c.selection) :=
  ⟨edges_ofManifest c m now, fun _ => mem_nodes_ofManifest_iff c m now,
    mirrors_iff_tellsApart c m now, fun h =>
      (mirrors_iff_tellsApart c m now).mpr (Manifest.tellsApart_of_hasPlainName h)⟩

end

/-- Two classes that declare a package in one version. One of them declares a scoped package too, and
a package under another name. -/
def aliased : Manifest where
  production := (∅ : Versions).insert "react" "18.2.0"
  peer := (((∅ : Versions).insert "react" "18.2.0").insert "@types/react" "18.2.0").insert "next"
    "npm:react@18.2.0"

/-- Every package has its node, and the one that is declared twice has that of the first class. -/
theorem ofManifest_mirrors_iff_aliased :
    (∀ d ∈ aliased.select { peer := true }, d.HasPlainName) ∧
      (ofManifest { selection := { peer := true } } aliased default).Mirrors aliased
        { peer := true } := by
  have hplain : ∀ d ∈ aliased.select { peer := true }, d.HasPlainName := by
    unfold Dependency.HasPlainName
    decide +kernel
  exact ⟨hplain, (ofManifest_mirrors_iff { selection := { peer := true } } aliased default).2.2.2
    hplain⟩

/-- Two packages with the same identifier. -/
def clashing : Manifest where
  production := ((∅ : Versions).insert "a" "b@c").insert "a@b" "c"

/-- Of the two packages, one is lost. -/
theorem not_mirrors_clashing :
    (clashing.select {}).map Dependency.pair = [("a", "b@c"), ("a@b", "c")] ∧
      ((ofManifest {} clashing default).nodes.map fun n => (n.name, n.version)) =
        [("a", some "b@c")] ∧
      ¬ (ofManifest {} clashing default).Mirrors clashing {} := by
  have hnodes : ((ofManifest {} clashing default).nodes.map fun n => (n.name, n.version)) =
      [("a", some "b@c")] := by
    decide +kernel
  refine ⟨by decide +kernel, hnodes, fun h => ?_⟩
  have hlength := h.pairs.length_eq
  rw [hnodes] at hlength
  exact absurd hlength (by decide +kernel)

end Build

end DepGraph

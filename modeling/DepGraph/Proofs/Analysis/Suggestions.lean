import DepGraph.Analysis.Optimization
import DepGraph.Proofs.Analysis.Grouping
import DepGraph.Proofs.Graph.Annotated

/-!
# What is suggested

The suggestions for a graph come in four blocks, and in each block they come in an order that the
graph fixes. Packages are grouped by their names, but a suggestion names their identifiers: several
versions of a package count as one name, and all of them are named.

- `Optimization.BreaksCycles`, `RemovesUnused`, `ConsolidatesGroups`, `DefersLarge`: what the blocks
  hold.
- `Optimization.cutMember?_eq_some_iff`: where a cycle is broken.
- `Optimization.filter_bySize`, `Optimization.pairwise_bySize`: nodes by size, those of one size as
  they were.
- `Optimization.consolidates_ofGroup`: what is suggested for a group of names.
- `Graph.Noted.suggestions_in_blocks`: the suggestions are these blocks.
-/

namespace DepGraph

open scoped List

namespace Optimization

/-! ## One suggestion for each node -/

/-- The suggestions are of the kind, one for each of the nodes, in their order. -/
def OneForEach (kind : OptimizationKind) (nodes : List Node) (suggested : List Optimization) :
    Prop :=
  List.Forall₂ (fun n o => o.kind = kind ∧ o.targets = [n.id]) nodes suggested

theorem oneForEach_map {kind : OptimizationKind} (f : Node → Optimization)
    (hf : ∀ n, (f n).kind = kind ∧ (f n).targets = [n.id]) (nodes : List Node) :
    OneForEach kind nodes (nodes.map f) := by
  unfold OneForEach
  rw [List.forall₂_map_right_iff, List.forall₂_same]
  exact fun n _ => hf n

/-! ## Cycles to break -/

/-- Is the node the last but one of the members, or the only one? -/
def IsCut (members : List String) (target : String) : Prop :=
  (∃ front last, members = front ++ [target, last]) ∨ members = [target]

theorem cutMember?_eq_some_iff {members : List String} {target : String} :
    cutMember? members = some target ↔ IsCut members target := by
  obtain ⟨back, rfl⟩ : ∃ back : List String, members = back.reverse :=
    ⟨members.reverse, (List.reverse_reverse _).symm⟩
  have hcut : IsCut back.reverse target ↔
      (∃ front last, back = last :: target :: front) ∨ back = [target] := by
    unfold IsCut
    simp only [List.reverse_eq_iff, List.reverse_append, List.reverse_cons, List.reverse_nil,
      List.nil_append, List.cons_append]
    refine or_congr_left ⟨?_, ?_⟩
    · rintro ⟨front, last, rfl⟩
      exact ⟨front.reverse, last, rfl⟩
    · rintro ⟨front, last, rfl⟩
      exact ⟨front.reverse, last, by rw [List.reverse_reverse]⟩
  rw [hcut, cutMember?, List.reverse_reverse]
  match back with
  | [] => simp
  | [only] => simp
  | last :: cut :: rest => simp

theorem exists_cutMember? {members : List String} (h : members ≠ []) :
    ∃ target, cutMember? members = some target := by
  obtain ⟨back, rfl⟩ : ∃ back : List String, members = back.reverse :=
    ⟨members.reverse, (List.reverse_reverse _).symm⟩
  unfold cutMember?
  rw [List.reverse_reverse]
  match back, h with
  | [only], _ => exact ⟨only, rfl⟩
  | last :: cut :: rest, _ => exact ⟨cut, rfl⟩

/-- One removal for each of the bad cycles, in their order, which cuts the cycle. -/
def BreaksCycles (cycles : List Cycle) (suggested : List Optimization) : Prop :=
  List.Forall₂
    (fun c o => o.kind = .remove ∧ ∃ target, IsCut c.members target ∧ o.targets = [target])
    (cycles.filter fun c => c.severity = .high ∨ c.severity = .critical) suggested

theorem breaksCycles_filterMap_ofCycle {cycles : List Cycle} (h : ∀ c ∈ cycles, c.members ≠ []) :
    BreaksCycles cycles (cycles.filterMap ofCycle) := by
  induction cycles with
  | nil => exact .nil
  | cons c cycles ih =>
    obtain ⟨hc, hcycles⟩ := List.forall_mem_cons.mp h
    have hbad : (c.severity = .high ∨ c.severity = .critical) ↔
        ¬ c.severity.rank < Severity.high.rank := by
      cases c.severity <;> decide
    unfold BreaksCycles
    -- a mild cycle is passed over by both, and of a bad one there is a member to cut
    by_cases hmild : c.severity.rank < Severity.high.rank
    · rw [List.filter_cons_of_neg (by simpa using mt hbad.mp (not_not.mpr hmild)),
        List.filterMap_cons_none (by rw [ofCycle, if_pos hmild])]
      exact ih hcycles
    · obtain ⟨target, htarget⟩ := exists_cutMember? hc
      have hcycle : ∃ o, ofCycle c = some o ∧ o.kind = .remove ∧ o.targets = [target] := by
        refine ⟨_, by rw [ofCycle, if_neg hmild, htarget, Option.map_some], rfl, rfl⟩
      obtain ⟨o, ho, hkind, htargets⟩ := hcycle
      rw [List.filter_cons_of_pos (by simpa using hbad.mpr hmild), List.filterMap_cons_some ho]
      exact .cons ⟨hkind, target, cutMember?_eq_some_iff.mp htarget, htargets⟩ (ih hcycles)

/-! ## Packages to remove -/

/-- One removal for each package into which no edge leads, by identifier. -/
def RemovesUnused (g : Graph) (suggested : List Optimization) : Prop :=
  ∃ unused : List Node,
    (∀ n, n ∈ unused ↔ n ∈ g.nodes ∧ n.kind = .package ∧ ∀ e ∈ g.edges, e.target ≠ n.id) ∧
    unused.Pairwise (fun a b => a.id < b.id) ∧ OneForEach .remove unused suggested

theorem removesUnused_map_ofUnused {g : Graph} (h : g.Consistent) :
    RemovesUnused g ((g.nodes.filter isUnused).map ofUnused) := by
  refine ⟨g.nodes.filter isUnused, fun n => ?_, h.identified.pairwise_nodes.filter _,
    oneForEach_map ofUnused (fun _ => ⟨rfl, rfl⟩) _⟩
  rw [List.mem_filter]
  refine and_congr_right fun hn => ?_
  rw [isUnused, Bool.and_eq_true, beq_iff_eq,
    h.isEmpty_dependents_iff (h.node?_of_mem_nodes hn)]

/-! ## Nodes to load late -/

/-- Comes the first node before the second where the largest come first? Nodes of one size come by
identifier. -/
def Larger (a b : Node) : Prop :=
  b.size.getD 0 < a.size.getD 0 ∨ a.size.getD 0 = b.size.getD 0 ∧ a.id < b.id

/-- One suggestion for each node that is large, has many dependencies or is deep. -/
def DefersLarge (g : Graph) (suggested : List Optimization) : Prop :=
  ∃ large : List Node,
    (∀ n, n ∈ large ↔ n ∈ g.nodes ∧
      ((∃ size, n.size = some size ∧ 500 * 1024 < size) ∨ 10 < n.dependencies.size ∨ 5 < n.depth)) ∧
    large.Pairwise Larger ∧ OneForEach .lazyLoad large suggested

section Sorting

/-- Is the second node no larger than the first? -/
def noLarger (a b : Node) : Bool :=
  b.size.getD 0 ≤ a.size.getD 0

theorem noLarger_iff {a b : Node} : noLarger a b = true ↔ b.size.getD 0 ≤ a.size.getD 0 :=
  decide_eq_true_iff

theorem noLarger_trans (a b c : Node) (hab : noLarger a b = true) (hbc : noLarger b c = true) :
    noLarger a c = true :=
  noLarger_iff.mpr (Nat.le_trans (noLarger_iff.mp hbc) (noLarger_iff.mp hab))

theorem noLarger_total (a b : Node) : (noLarger a b || noLarger b a) = true := by
  rw [Bool.or_eq_true, noLarger_iff, noLarger_iff]
  exact Nat.le_total _ _

theorem bySize_eq (nodes : List Node) : bySize nodes = nodes.mergeSort noLarger := rfl

/-- Nodes of one size stay in their order. -/
theorem filter_bySize (nodes : List Node) (size : Nat) :
    (bySize nodes).filter (·.size.getD 0 == size) = nodes.filter (·.size.getD 0 == size) := by
  have hsame : (nodes.filter (·.size.getD 0 == size)).Pairwise fun a b => noLarger a b = true := by
    refine List.pairwise_of_forall_mem_list fun a ha b hb => noLarger_iff.mpr (Nat.le_of_eq ?_)
    rw [beq_iff_eq.mp (List.mem_filter.mp ha).2, beq_iff_eq.mp (List.mem_filter.mp hb).2]
  have hkept : nodes.filter (·.size.getD 0 == size) <+ bySize nodes := by
    rw [bySize_eq]
    exact List.sublist_mergeSort noLarger_trans noLarger_total hsame List.filter_sublist
  have hsub : nodes.filter (·.size.getD 0 == size) <+
      (bySize nodes).filter (·.size.getD 0 == size) := by
    simpa using hkept.filter (·.size.getD 0 == size)
  exact (hsub.eq_of_length ((List.mergeSort_perm nodes _).filter _).length_eq.symm).symm

theorem pairwise_bySize {nodes : List Node} (h : nodes.Pairwise fun a b => a.id < b.id) :
    (bySize nodes).Pairwise Larger := by
  have hsorted : (bySize nodes).Pairwise fun a b => noLarger a b = true := by
    rw [bySize_eq]
    exact List.pairwise_mergeSort noLarger_trans noLarger_total nodes
  refine List.pairwise_iff_forall_sublist.mpr fun {a b} hab => ?_
  have hle : b.size.getD 0 ≤ a.size.getD 0 :=
    noLarger_iff.mp (List.pairwise_iff_forall_sublist.mp hsorted hab)
  rcases Nat.lt_or_eq_of_le hle with hlt | heq
  · exact .inl hlt
  · -- among the nodes of this size, the two come as they came before
    have hclass : [a, b] <+ nodes.filter (·.size.getD 0 == a.size.getD 0) := by
      rw [← filter_bySize]
      simpa [heq] using hab.filter (·.size.getD 0 == a.size.getD 0)
    exact .inr ⟨heq.symm, List.pairwise_iff_forall_sublist.mp (h.filter _) hclass⟩

end Sorting

theorem defersLarge_map_ofLazy {g : Graph} (h : g.Consistent) :
    DefersLarge g ((bySize (g.nodes.filter isLazy)).map ofLazy) := by
  refine ⟨bySize (g.nodes.filter isLazy), fun n => ?_,
    pairwise_bySize (h.identified.pairwise_nodes.filter _),
    oneForEach_map ofLazy (fun _ => ⟨rfl, rfl⟩) _⟩
  rw [bySize_eq, List.mem_mergeSort, List.mem_filter, isLazy_iff]

/-! ## Packages to consolidate -/

/-- Two packages of different names have the key. -/
def Shared (g : Graph) (s : Similarity) (key : String) : Prop :=
  ∃ a ∈ g.nodesOfKind .package, ∃ b ∈ g.nodesOfKind .package,
    a.name ≠ b.name ∧ s.key? a.name = some key ∧ s.key? b.name = some key

/-- The packages whose names have the key are to be consolidated: all of them, at least two, by
identifier. The suggestion tells the key, and how many names it is about. -/
structure Consolidates (g : Graph) (s : Similarity) (key : String) (o : Optimization) : Prop where
  kind_eq : o.kind = .replace
  mem_targets_iff : ∀ id, id ∈ o.targets ↔
    ∃ n ∈ g.nodesOfKind .package, n.id = id ∧ s.key? n.name = some key
  pairwise_targets : o.targets.Pairwise (· < ·)
  two_le_length_targets : 2 ≤ o.targets.length
  impact_eq : ∃ names : List String, names.Nodup ∧
    (∀ name, name ∈ names ↔
      ∃ n ∈ g.nodesOfKind .package, n.name = name ∧ s.key? name = some key) ∧
    o.impact = s!"Consolidates {names.length} related '{key}' packages"

/-- One suggestion for each key that packages of different names have, in the order of the keys. No
package is to be consolidated twice, and those that are to be are exactly the packages whose names
have such a key. -/
def ConsolidatesGroups (g : Graph) (s : Similarity) (suggested : List Optimization) : Prop :=
  (∃ keys : List String, (∀ key, key ∈ keys ↔ Shared g s key) ∧ keys.Pairwise (· < ·) ∧
    List.Forall₂ (Consolidates g s) keys suggested) ∧
  suggested.Pairwise (fun o o' => o.targets.Disjoint o'.targets) ∧
  ∀ id, (∃ o ∈ suggested, id ∈ o.targets) ↔
    ∃ n ∈ g.nodesOfKind .package, n.id = id ∧ ∃ key, s.key? n.name = some key ∧ Shared g s key

/-- The names of the packages, one for each package. -/
def packageNames (g : Graph) : List String :=
  (g.nodesOfKind .package).map (·.name)

section Groups

variable {g : Graph} {s : Similarity} {key key' : String} {o o' : Optimization}

theorem exists_mem_groups_iff_shared :
    (∃ members, (key, members) ∈ s.groups (packageNames g)) ↔ Shared g s key := by
  rw [Similarity.exists_mem_groups_iff, Shared]
  simp only [packageNames, List.mem_map, exists_exists_and_eq_and]

theorem mem_targets_ofGroup_iff {group : String × List String}
    (hgroup : group ∈ s.groups (packageNames g)) (id : String) :
    id ∈ (ofGroup (g.nodesOfKind .package) group).targets ↔
      ∃ n ∈ g.nodesOfKind .package, n.id = id ∧ s.key? n.name = some group.1 := by
  show id ∈ ((g.nodesOfKind .package).filter fun n => group.2.contains n.name).map (·.id) ↔ _
  simp only [List.mem_map, List.mem_filter, List.contains_iff_mem, and_assoc]
  refine exists_congr fun n => and_congr_right fun hn => ?_
  have hname : n.name ∈ packageNames g := List.mem_map_of_mem hn
  rw [Similarity.mem_members_iff hgroup, and_iff_right hname, and_comm]

variable (h : g.Consistent)

include h

/-- Packages are told apart by their identifiers. -/
theorem eq_of_mem_nodesOfKind {kind : NodeKind} {a b : Node} (ha : a ∈ g.nodesOfKind kind)
    (hb : b ∈ g.nodesOfKind kind) (hid : a.id = b.id) : a = b := by
  have ha' := h.node?_of_mem_nodes (List.mem_filter.mp ha).1
  have hb' := h.node?_of_mem_nodes (List.mem_filter.mp hb).1
  rw [hid, hb'] at ha'
  exact (Option.some.inj ha').symm

/-- Two packages of different names are two packages. -/
theorem two_le_length_of_shared {ids : List String} (hshared : Shared g s key)
    (hids : ∀ n ∈ g.nodesOfKind .package, s.key? n.name = some key → n.id ∈ ids) :
    2 ≤ ids.length := by
  obtain ⟨a, ha, b, hb, hne, hakey, hbkey⟩ := hshared
  have hpair : [a.id, b.id].Nodup := by
    refine List.nodup_cons.mpr ⟨fun hid => hne ?_, List.nodup_singleton _⟩
    rw [eq_of_mem_nodesOfKind h ha hb (List.mem_singleton.mp hid)]
  have hsub : [a.id, b.id] ⊆ ids := by
    simp [hids a ha hakey, hids b hb hbkey]
  exact (hpair.subperm hsub).length_le

/-- What is suggested for a group is about the packages whose names have the key of the group. -/
theorem consolidates_ofGroup {group : String × List String}
    (hgroup : group ∈ s.groups (packageNames g)) :
    Consolidates g s group.1 (ofGroup (g.nodesOfKind .package) group) where
  kind_eq := rfl
  mem_targets_iff := mem_targets_ofGroup_iff hgroup
  pairwise_targets :=
    List.pairwise_map.mpr ((h.identified.pairwise_nodes.filter _).filter _)
  two_le_length_targets := by
    refine two_le_length_of_shared h (exists_mem_groups_iff_shared.mp ⟨group.2, hgroup⟩) ?_
    exact fun n hn hkey => (mem_targets_ofGroup_iff hgroup n.id).mpr ⟨n, hn, rfl, hkey⟩
  impact_eq := by
    refine ⟨group.2, Similarity.nodup_members hgroup, fun name => ?_, rfl⟩
    rw [Similarity.mem_members_iff hgroup, packageNames, List.mem_map]
    simp only [exists_and_right, ← and_assoc]

/-- A package has one name, and a name one key. -/
theorem Consolidates.disjoint_targets (ho : Consolidates g s key o) (ho' : Consolidates g s key' o')
    (hne : key ≠ key') : o.targets.Disjoint o'.targets := by
  intro id hid hid'
  obtain ⟨n, hn, rfl, hkey⟩ := (ho.mem_targets_iff id).mp hid
  obtain ⟨n', hn', heq, hkey'⟩ := (ho'.mem_targets_iff n.id).mp hid'
  obtain rfl := eq_of_mem_nodesOfKind h hn' hn heq
  exact hne (Option.some.inj (hkey.symm.trans hkey'))

theorem consolidatesGroups_map_ofGroup :
    ConsolidatesGroups g s
      ((s.groups (packageNames g)).map (ofGroup (g.nodesOfKind .package))) := by
  refine ⟨⟨(s.groups (packageNames g)).map (·.1), fun key => ?_,
    List.pairwise_map.mpr (s.pairwise_groups _), ?_⟩, ?_, fun id => ?_⟩
  · rw [← exists_mem_groups_iff_shared, List.mem_map]
    simp
  · rw [List.forall₂_map_left_iff, List.forall₂_map_right_iff, List.forall₂_same]
    exact fun group hgroup => consolidates_ofGroup h hgroup
  · rw [List.pairwise_map]
    refine (s.pairwise_groups _).imp_of_mem fun {a b} ha hb hlt => ?_
    exact (consolidates_ofGroup h ha).disjoint_targets h (consolidates_ofGroup h hb)
      fun heq => String.lt_irrefl _ (heq ▸ hlt)
  · -- a package is named for the key of its name, and that key has a group if it is shared
    constructor
    · rintro ⟨o, ho, hid⟩
      obtain ⟨group, hgroup, rfl⟩ := List.mem_map.mp ho
      obtain ⟨n, hn, rfl, hkey⟩ := (mem_targets_ofGroup_iff hgroup id).mp hid
      exact ⟨n, hn, rfl, group.1, hkey, exists_mem_groups_iff_shared.mp ⟨group.2, hgroup⟩⟩
    · rintro ⟨n, hn, rfl, key, hkey, hshared⟩
      obtain ⟨members, hgroup⟩ := exists_mem_groups_iff_shared.mpr hshared
      exact ⟨_, List.mem_map_of_mem hgroup,
        (mem_targets_ofGroup_iff hgroup n.id).mpr ⟨n, hn, rfl, hkey⟩⟩

end Groups

end Optimization

/-! ## The four blocks -/

/-- **Suggestions come in four blocks.** First comes one removal for each cycle that is bad, in the
order of the cycles, then one for each package that nothing depends on. Then come the packages to
consolidate, in the order of the keys of their names: no package is named twice, and the packages
that are named are exactly those whose key packages of another name have as well. Last come the
nodes to load late, the largest first. -/
theorem Graph.Noted.suggestions_in_blocks {g : Graph} (h : g.Noted) {cycles : List Cycle}
    (hcycles : ∀ c ∈ cycles, c.members ≠ []) (s : Similarity) :
    ∃ breaks removals consolidations deferrals,
      g.suggestOptimizations cycles s = breaks ++ removals ++ consolidations ++ deferrals ∧
      Optimization.BreaksCycles cycles breaks ∧ Optimization.RemovesUnused g removals ∧
      Optimization.ConsolidatesGroups g s consolidations ∧ Optimization.DefersLarge g deferrals :=
  ⟨_, _, _, _, rfl, Optimization.breaksCycles_filterMap_ofCycle hcycles,
    Optimization.removesUnused_map_ofUnused h.consistent,
    Optimization.consolidatesGroups_map_ofGroup h.consistent,
    Optimization.defersLarge_map_ofLazy h.consistent⟩

/-- Two versions of a package, of which nothing uses the first, and a package with the same
initial. The two that are used use each other. -/
def Graph.shelf : Graph :=
  (((((({} : Graph).addNode (.package "react" "17")).addNode
    { Node.package "react" "18" with size := some 600000 }).addNode
    (.package "redux" "5")).addNode (.package "lodash" "4")).addEdge
    { source := "react@18", target := "redux@5", kind := .requires }).addEdge
    { source := "redux@5", target := "react@18", kind := .requires }

theorem Graph.noted_shelf : shelf.Noted :=
  have hpackages : Noted _ :=
    .addNode (.addNode (.addNode (.addNode (.empty _) rfl rfl) rfl rfl) rfl rfl) rfl rfl
  .addEdge _ (.addEdge _ hpackages)

/-- The cycle of the two, taken for a bad one. -/
def Graph.shelfCycle : Cycle :=
  { Cycle.classify shelf ["react@18", "redux@5"] with severity := .high }

theorem Graph.suggestions_in_blocks_shelf :
    shelf.Noted ∧ (∀ c ∈ [shelfCycle], c.members ≠ []) ∧
      (∃ breaks removals consolidations deferrals,
        shelf.suggestOptimizations [shelfCycle] .firstLetter =
          breaks ++ removals ++ consolidations ++ deferrals ∧
        Optimization.BreaksCycles [shelfCycle] breaks ∧
        Optimization.RemovesUnused shelf removals ∧
        Optimization.ConsolidatesGroups shelf .firstLetter consolidations ∧
        Optimization.DefersLarge shelf deferrals) ∧
      (shelf.suggestOptimizations [shelfCycle] .firstLetter).map (fun o => (o.kind, o.targets)) =
        [(.remove, ["react@18"]), (.remove, ["lodash@4"]), (.remove, ["react@17"]),
          (.replace, ["react@17", "react@18", "redux@5"]), (.lazyLoad, ["react@18"])] := by
  have hmembers : ∀ c ∈ [shelfCycle], c.members ≠ [] := by decide +kernel
  exact ⟨noted_shelf, hmembers, noted_shelf.suggestions_in_blocks hmembers .firstLetter,
    by decide +kernel⟩

end DepGraph

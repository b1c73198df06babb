import DepGraph.Proofs.Resolve.Exclusion

/-!
# What a registry remembers

A registry of resolvers is changed in two ways, by registering a resolver and by taking a name out,
and it remembers two things of each name that it holds: when the name came, which gives its place,
and which resolver was registered last under it. A name that is registered again while it is there
keeps its place; one that was taken out in between comes anew.

- `Change`, `after`: the changes of a registry, and the registry after a list of them.
- `Absent`, `CameAt`, `Latest`: what a history says about a name, without looking at a registry;
  `absent_concat_iff`, `cameAt_concat_iff`, `latest_concat_iff`: and how one change more changes it.
- `get?_register`, `get?_remove`: the resolver of a name after one change.
- `Remembers`, `remembers_apply`: what a registry tells of a history, and that one change keeps it.
- `resolve_eq_findSome?_names`: to ask the resolvers is to ask the names in order.
- `registry_of_history`: every registry tells its history, takes out one name alone, and answers
  with the first of its names that knows an answer.
-/

namespace DepGraph.ResolverRegistry

/-- A change of a registry. -/
inductive Change where
  | register (resolver : Resolver)
  | unregister (name : String)

/-- The name that a change is about. -/
def Change.name : Change → String
  | .register resolver => resolver.name
  | .unregister name => name

/-- The registry after one change more. -/
def apply (r : ResolverRegistry) : Change → ResolverRegistry
  | .register resolver => r.register resolver
  | .unregister name => (r.remove name).2

/-- The registry after the changes, the first of them made to the empty one. -/
def after (changes : List Change) : ResolverRegistry :=
  changes.foldl apply empty

theorem after_concat (changes : List Change) (c : Change) :
    after (changes ++ [c]) = (after changes).apply c := by
  rw [after, List.foldl_concat]
  rfl

/-! ## Histories -/

/-- Whenever the name was registered, it was taken out later. -/
def Absent (changes : List Change) (name : String) : Prop :=
  ∀ past resolver later, changes = past ++ .register resolver :: later →
    resolver.name = name → .unregister name ∈ later

/-- After so many changes the name was registered while it was absent, and it was never taken out
since. -/
def CameAt (changes : List Change) (name : String) (time : Nat) : Prop :=
  ∃ past resolver later, changes = past ++ .register resolver :: later ∧
    resolver.name = name ∧ Absent past name ∧ .unregister name ∉ later ∧ time = past.length

/-- The resolver was registered, and no later change is about its name. -/
def Latest (changes : List Change) (resolver : Resolver) : Prop :=
  ∃ past later, changes = past ++ .register resolver :: later ∧
    ∀ c ∈ later, c.name ≠ resolver.name

/-- A change in a history of one change more is the last one or was in the history before. -/
theorem concat_eq_append_cons_iff {changes past later : List Change} {c d : Change} :
    changes ++ [c] = past ++ d :: later ↔
      (past = changes ∧ d = c ∧ later = []) ∨
        ∃ front, later = front ++ [c] ∧ changes = past ++ d :: front := by
  constructor
  · intro h
    rcases List.eq_nil_or_concat later with rfl | ⟨front, last, rfl⟩
    · obtain ⟨rfl, hlast⟩ := List.append_inj' h rfl
      exact .inl ⟨rfl, (List.cons.inj hlast).1.symm, rfl⟩
    · rw [List.concat_eq_append, ← List.cons_append, ← List.append_assoc] at h
      obtain ⟨rfl, hlast⟩ := List.append_inj' h rfl
      exact .inr ⟨front, by rw [List.concat_eq_append, hlast], rfl⟩
  · rintro (⟨rfl, rfl, rfl⟩ | ⟨front, rfl, rfl⟩)
    · rfl
    · rw [List.append_assoc, List.cons_append]

section

variable {changes : List Change} {c : Change} {name : String}

theorem not_mem_concat {d : Change} (h : d ∉ changes) (hne : d ≠ c) : d ∉ changes ++ [c] := by
  rw [List.mem_append, List.mem_singleton]
  exact not_or.mpr ⟨h, hne⟩

theorem absent_nil (name : String) : Absent [] name := by
  intro past resolver later h
  exact absurd h.symm (List.append_ne_nil_of_right_ne_nil _ (List.cons_ne_nil _ _))

theorem absent_concat_iff :
    Absent (changes ++ [c]) name ↔ c = .unregister name ∨ c.name ≠ name ∧ Absent changes name := by
  constructor
  · intro h
    by_cases hc : c = .unregister name
    · exact .inl hc
    · refine .inr ⟨?_, fun past resolver later hpast hname => ?_⟩
      · -- a registration that comes last is not followed by anything
        rintro rfl
        cases c with
        | unregister other => exact hc rfl
        | register resolver =>
          exact List.not_mem_nil (h changes resolver [] rfl rfl)
      · have hmem := h past resolver (later ++ [c]) (by rw [hpast, List.append_assoc]; rfl) hname
        by_contra hnot
        exact not_mem_concat hnot (Ne.symm hc) hmem
  · rintro h past resolver later hpast hname
    rcases concat_eq_append_cons_iff.mp hpast with ⟨rfl, rfl, rfl⟩ | ⟨front, rfl, hfront⟩
    · exact absurd hname (h.resolve_left nofun).1
    · rcases h with rfl | ⟨-, habsent⟩
      · exact List.mem_append_right _ (List.mem_singleton_self _)
      · exact List.mem_append_left _ (habsent past resolver front hfront hname)

theorem latest_concat_iff {resolver : Resolver} :
    Latest (changes ++ [c]) resolver ↔
      c = .register resolver ∨ c.name ≠ resolver.name ∧ Latest changes resolver := by
  constructor
  · rintro ⟨past, later, hpast, hlater⟩
    rcases concat_eq_append_cons_iff.mp hpast with ⟨rfl, rfl, rfl⟩ | ⟨front, rfl, hfront⟩
    · exact .inl rfl
    · exact .inr ⟨hlater c (List.mem_append_right _ (List.mem_singleton_self c)),
        past, front, hfront, fun d hd => hlater d (List.mem_append_left _ hd)⟩
  · rintro (rfl | ⟨hc, past, later, rfl, hlater⟩)
    · exact ⟨changes, [], rfl, List.forall_mem_nil _⟩
    · refine ⟨past, later ++ [c], by rw [List.append_assoc]; rfl, fun d hd => ?_⟩
      rcases List.mem_append.mp hd with hold | hnew
      · exact hlater d hold
      · exact List.mem_singleton.mp hnew ▸ hc

theorem cameAt_concat_iff {time : Nat} :
    CameAt (changes ++ [c]) name time ↔
      (c ≠ .unregister name ∧ CameAt changes name time) ∨
        Absent changes name ∧ time = changes.length ∧
          ∃ resolver, c = .register resolver ∧ resolver.name = name := by
  constructor
  · rintro ⟨past, resolver, later, hpast, hname, habsent, hkept, rfl⟩
    rcases concat_eq_append_cons_iff.mp hpast with ⟨rfl, rfl, rfl⟩ | ⟨front, rfl, hfront⟩
    · exact .inr ⟨habsent, rfl, resolver, rfl, hname⟩
    · obtain ⟨hfrontKept, hc⟩ := not_or.mp (mt List.mem_append.mpr hkept)
      exact .inl ⟨fun heq => hc (List.mem_singleton.mpr heq.symm),
        past, resolver, front, hfront, hname, habsent, hfrontKept, rfl⟩
  · rintro (⟨hc, past, resolver, later, rfl, hname, habsent, hkept, rfl⟩ |
      ⟨habsent, rfl, resolver, rfl, hname⟩)
    · exact ⟨past, resolver, later ++ [c], by rw [List.append_assoc]; rfl, hname, habsent,
        not_mem_concat hkept (Ne.symm hc), rfl⟩
    · exact ⟨changes, resolver, [], rfl, hname, habsent, List.not_mem_nil, rfl⟩

theorem CameAt.not_absent {time : Nat} (h : CameAt changes name time) : ¬ Absent changes name := by
  obtain ⟨past, resolver, later, hpast, hname, -, hkept, -⟩ := h
  exact fun habsent => hkept (habsent past resolver later hpast hname)

/-- A name that is there came before the last change. -/
theorem CameAt.of_concat {time : Nat} (h : CameAt (changes ++ [c]) name time)
    (hpresent : ¬ Absent changes name) : CameAt changes name time :=
  (cameAt_concat_iff.mp h).elim And.right fun hnew => absurd hnew.1 hpresent

theorem CameAt.lt_length {time : Nat} (h : CameAt changes name time) : time < changes.length := by
  obtain ⟨past, resolver, later, rfl, -, -, -, rfl⟩ := h
  rw [List.length_append, List.length_cons]
  omega

end

/-! ## One change -/

section

variable (r : ResolverRegistry) (resolver : Resolver) (name other : String)

theorem get?_eq_none_iff : r.get? name = none ↔ name ∉ r.names := by
  simp [get?, names]

theorem get?_register :
    (r.register resolver).get? name =
      if resolver.name = name then some resolver else r.get? name := by
  unfold register
  split
  · next hknown =>
    -- whatever is put into a place has the name of that place
    have hnames : ((·.name == name) ∘ fun old : Resolver =>
        if old.name == resolver.name then resolver else old) = (·.name == name) := by
      funext old
      by_cases hold : old.name = resolver.name <;> simp [hold]
    have hmap : get? ⟨r.resolvers.map fun old =>
        if old.name == resolver.name then resolver else old⟩ name =
          (r.get? name).map fun old => if old.name == resolver.name then resolver else old := by
      rw [get?, List.find?_map, hnames]
      rfl
    rw [hmap]
    cases hget : r.get? name with
    | none =>
      have hne : resolver.name ≠ name := by
        rintro rfl
        exact (r.get?_eq_none_iff _).mp hget (List.contains_iff_mem.mp hknown)
      rw [if_neg hne]
      rfl
    | some old =>
      have hold : old.name = name := by simpa using List.find?_some hget
      by_cases heq : resolver.name = name
      · simp [hold, heq]
      · simp [hold, heq, Ne.symm heq]
  · next hnew =>
    have hnone : r.get? resolver.name = none :=
      (r.get?_eq_none_iff _).mpr fun hmem => hnew (List.contains_iff_mem.mpr hmem)
    have happend : get? ⟨r.resolvers ++ [resolver]⟩ name =
        (r.get? name).or (if resolver.name = name then some resolver else none) := by
      rw [get?, List.find?_append]
      by_cases heq : resolver.name = name <;> simp [get?, heq]
    rw [happend]
    by_cases heq : resolver.name = name
    · subst heq
      rw [hnone, if_pos rfl]
      rfl
    · rw [if_neg heq, if_neg heq, Option.or_none]

theorem get?_remove :
    (r.remove name).2.get? other = if other = name then none else r.get? other := by
  show (r.resolvers.filter (·.name != name)).find? (·.name == other) = _
  rw [List.find?_filter]
  by_cases heq : other = name
  · rw [if_pos heq, List.find?_eq_none]
    rintro old -
    by_cases hold : old.name = name <;> simp [hold, heq]
  · rw [if_neg heq, get?]
    congr 1
    funext old
    by_cases hold : old.name = other <;> simp [hold, heq]

end

theorem mem_names_remove {r : ResolverRegistry} {name other : String} :
    other ∈ (r.remove name).2.names ↔ other ∈ r.names ∧ other ≠ name := by
  show other ∈ (r.unregister name).names ↔ _
  rw [names_unregister, List.mem_filter, bne_iff_ne]

/-! ## What a registry tells of its history -/

/-- The registry holds the names that are not absent, each of them once, in the order in which they
came, and under each the resolver that was registered last. -/
structure Remembers (r : ResolverRegistry) (changes : List Change) : Prop where
  nodup : r.names.Nodup
  mem_names_iff : ∀ name, name ∈ r.names ↔ ¬ Absent changes name
  came : ∀ name ∈ r.names, ∃ time, CameAt changes name time
  order : r.names.Pairwise fun a b =>
    ∀ time time', CameAt changes a time → CameAt changes b time' → time < time'
  get?_eq_some_iff : ∀ name resolver,
    r.get? name = some resolver ↔ resolver.name = name ∧ Latest changes resolver

theorem remembers_empty : empty.Remembers [] where
  nodup := .nil
  mem_names_iff name := iff_of_false List.not_mem_nil fun h => h (absent_nil name)
  came _ h := absurd h List.not_mem_nil
  order := .nil
  get?_eq_some_iff name resolver := by
    refine iff_of_false nofun ?_
    rintro ⟨-, past, later, hpast, -⟩
    exact List.append_ne_nil_of_right_ne_nil past (List.cons_ne_nil _ _) hpast.symm

section

variable {r : ResolverRegistry} {changes : List Change} (h : r.Remembers changes)

include h

theorem Remembers.order_concat (c : Change) : r.names.Pairwise fun a b =>
    ∀ time time', CameAt (changes ++ [c]) a time → CameAt (changes ++ [c]) b time' →
      time < time' := by
  refine h.order.imp_of_mem fun {a b} ha hb hab time time' htime htime' => ?_
  exact hab time time' (htime.of_concat ((h.mem_names_iff a).mp ha))
    (htime'.of_concat ((h.mem_names_iff b).mp hb))

theorem remembers_register (resolver : Resolver) :
    (r.register resolver).Remembers (changes ++ [.register resolver]) where
  nodup := by
    rw [names_register]
    split
    · exact h.nodup
    · next hnew =>
      rw [← List.concat_eq_append]
      exact List.Nodup.concat (mt List.contains_iff_mem.mpr hnew) h.nodup
  mem_names_iff name := by
    have hlast : Absent (changes ++ [.register resolver]) name ↔
        resolver.name ≠ name ∧ Absent changes name :=
      absent_concat_iff.trans (or_iff_right nofun)
    rw [mem_names_register, h.mem_names_iff name, hlast, not_and_or, not_ne_iff, or_comm]
  came name hname := by
    simp only [cameAt_concat_iff]
    by_cases hold : name ∈ r.names
    · obtain ⟨time, htime⟩ := h.came name hold
      exact ⟨time, .inl ⟨nofun, htime⟩⟩
    · have habsent : Absent changes name := not_not.mp (mt (h.mem_names_iff name).mpr hold)
      exact ⟨changes.length, .inr ⟨habsent, rfl, resolver, rfl,
        (mem_names_register.mp hname).resolve_left hold⟩⟩
  order := by
    rw [names_register]
    split
    · exact h.order_concat _
    · next hnew =>
      have hmem : resolver.name ∉ r.names := fun hmem => hnew (List.contains_iff_mem.mpr hmem)
      refine List.pairwise_append.mpr ⟨h.order_concat _, List.pairwise_singleton _ _, ?_⟩
      intro a ha b hb time time' htime htime'
      obtain rfl := List.mem_singleton.mp hb
      -- the new name comes last of all
      rcases cameAt_concat_iff.mp htime' with ⟨-, hearlier⟩ | ⟨-, rfl, -⟩
      · exact absurd ((h.mem_names_iff _).mpr hearlier.not_absent) hmem
      · exact (htime.of_concat ((h.mem_names_iff a).mp ha)).lt_length
  get?_eq_some_iff name other := by
    rw [get?_register, latest_concat_iff]
    by_cases hname : resolver.name = name
    · rw [if_pos hname, Option.some.injEq, Change.register.injEq]
      constructor
      · rintro rfl
        exact ⟨hname, .inl rfl⟩
      · rintro ⟨hother, heq | ⟨hne, -⟩⟩
        · exact heq
        · exact absurd (hname.trans hother.symm) hne
    · rw [if_neg hname, h.get?_eq_some_iff, Change.register.injEq]
      refine and_congr_right fun hother => ?_
      constructor
      · exact fun hlatest => .inr ⟨fun heq => hname (heq.trans hother), hlatest⟩
      · rintro (rfl | ⟨-, hlatest⟩)
        · exact absurd hother hname
        · exact hlatest

theorem remembers_remove (name : String) :
    (r.remove name).2.Remembers (changes ++ [.unregister name]) where
  nodup := by
    show (r.unregister name).names.Nodup
    rw [names_unregister]
    exact h.nodup.filter _
  mem_names_iff other := by
    rw [mem_names_remove, h.mem_names_iff other, absent_concat_iff, Change.unregister.injEq,
      not_or, and_comm, ne_comm]
    refine and_congr_right fun hne => ?_
    exact (not_and.trans (imp_iff_right hne)).symm
  came other hother := by
    obtain ⟨hold, hne⟩ := mem_names_remove.mp hother
    obtain ⟨time, htime⟩ := h.came other hold
    refine ⟨time, cameAt_concat_iff.mpr (.inl ⟨?_, htime⟩)⟩
    rw [ne_eq, Change.unregister.injEq]
    exact Ne.symm hne
  order := by
    show (r.unregister name).names.Pairwise _
    rw [names_unregister]
    exact (h.order_concat _).filter _
  get?_eq_some_iff other resolver := by
    have hlast : Latest (changes ++ [.unregister name]) resolver ↔
        name ≠ resolver.name ∧ Latest changes resolver :=
      latest_concat_iff.trans (or_iff_right nofun)
    rw [get?_remove, hlast]
    by_cases heq : other = name
    · rw [if_pos heq]
      refine iff_of_false nofun ?_
      rintro ⟨hother, hne, -⟩
      exact hne (heq.symm.trans hother.symm)
    · rw [if_neg heq, h.get?_eq_some_iff]
      refine and_congr_right fun hother => (and_iff_right ?_).symm
      exact fun hname => heq (hother.symm.trans hname.symm)

theorem remembers_apply (c : Change) : (r.apply c).Remembers (changes ++ [c]) := by
  cases c with
  | register resolver => exact remembers_register h resolver
  | unregister name => exact remembers_remove h name

end

theorem remembers_after (changes : List Change) : (after changes).Remembers changes := by
  induction changes using List.reverseRecOn with
  | nil => exact remembers_empty
  | append_singleton changes c ih =>
    rw [after_concat]
    exact remembers_apply ih c

/-! ## Asking -/

/-- If no name is there twice, each resolver is the one of its name. -/
theorem get?_name_of_mem {r : ResolverRegistry} (h : r.names.Nodup) {resolver : Resolver}
    (hmem : resolver ∈ r.resolvers) : r.get? resolver.name = some resolver := by
  cases hget : r.get? resolver.name with
  | none => exact absurd (List.mem_map_of_mem hmem) ((r.get?_eq_none_iff _).mp hget)
  | some other =>
    have hname : other.name = resolver.name := by simpa using List.find?_some hget
    rw [List.inj_on_of_nodup_map h (List.mem_of_find?_eq_some hget) hmem hname]

/-- To ask the resolvers in order is to ask the names in order. -/
theorem resolve_eq_findSome?_names {r : ResolverRegistry} (h : r.names.Nodup) (scope : Scope)
    (i : Import) (importer : Path) :
    r.resolve scope i importer =
      r.names.findSome? fun name => (r.get? name).bind (·.resolve scope i importer) := by
  rw [resolve, names, List.findSome?_map, ← List.head?_filterMap, ← List.head?_filterMap]
  refine congrArg List.head? (List.filterMap_congr fun resolver hmem => ?_)
  rw [Function.comp_apply, get?_name_of_mem h hmem, Option.bind_some]

/-- The names are asked in order: the first that knows an answer gives it, and there is none only
if none of them knows one. -/
def AsksInOrder (r : ResolverRegistry) : Prop :=
  ∀ scope i importer,
    (∀ found, r.resolve scope i importer = some found ↔
      ∃ earlier name later resolver, r.names = earlier ++ name :: later ∧
        r.get? name = some resolver ∧ resolver.resolve scope i importer = some found ∧
          ∀ other ∈ earlier, ∀ resolver', r.get? other = some resolver' →
            resolver'.resolve scope i importer = none) ∧
    (r.resolve scope i importer = none ↔
      ∀ name ∈ r.names, ∀ resolver, r.get? name = some resolver →
        resolver.resolve scope i importer = none)

theorem asksInOrder_of_nodup {r : ResolverRegistry} (h : r.names.Nodup) : r.AsksInOrder := by
  intro scope i importer
  have hnone : ∀ name, (r.get? name).bind (·.resolve scope i importer) = none ↔
      ∀ resolver, r.get? name = some resolver → resolver.resolve scope i importer = none :=
    fun name => Option.bind_eq_none_iff
  rw [resolve_eq_findSome?_names h]
  constructor
  · intro found
    rw [List.findSome?_eq_some_iff]
    simp only [hnone, Option.bind_eq_some_iff]
    constructor
    · rintro ⟨earlier, name, later, hnames, ⟨resolver, hget, hfound⟩, hall⟩
      exact ⟨earlier, name, later, resolver, hnames, hget, hfound, hall⟩
    · rintro ⟨earlier, name, later, resolver, hnames, hget, hfound, hall⟩
      exact ⟨earlier, name, later, hnames, ⟨resolver, hget, hfound⟩, hall⟩
  · rw [List.findSome?_eq_none_iff]
    simp only [hnone]

/-- To take a name out is to be told whether it was there, and to leave the other names in their
order with their resolvers. -/
structure TakesOut (r : ResolverRegistry) (name : String) : Prop where
  told : (r.remove name).1 = true ↔ name ∈ r.names
  names : (r.remove name).2.names = r.names.filter (· != name)
  get? : ∀ other,
    (r.remove name).2.get? other = if other = name then none else r.get? other

/-- **The registry of a history.** After any changes the names that are there stand in the order in
which they came, each once, and each with the resolver that was registered last under it. A name
that is absent has none. Taking out a name touches no other and tells whether it was there, and a
question gets the answer of the first name that knows one. -/
theorem registry_of_history (changes : List Change) :
    (after changes).Remembers changes ∧
      (∀ name, (after changes).get? name = none ↔ Absent changes name) ∧
      (∀ name, (after changes).TakesOut name) ∧ (after changes).AsksInOrder := by
  have h := remembers_after changes
  refine ⟨h, fun name => ?_, fun name => ⟨?_, ?_, ?_⟩, asksInOrder_of_nodup h.nodup⟩
  · rw [get?_eq_none_iff, h.mem_names_iff, not_not]
  · exact remove_fst_iff _ name
  · exact names_unregister _ name
  · exact get?_remove _ name

/-- A name that is registered again keeps its place, but not if it was taken out. -/
example :
    (after [.register .relative, .register .python, .register .relative]).names =
        ["relative", "python"] ∧
      (after [.register .relative, .register .python, .unregister "relative",
        .register .relative]).names = ["python", "relative"] := by
  decide +kernel

end DepGraph.ResolverRegistry

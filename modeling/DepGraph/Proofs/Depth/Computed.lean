import Mathlib.Data.List.Chain
import Mathlib.Data.List.Induction
import Mathlib.Data.List.Nodup
import DepGraph.Analysis.Depth

/-!
# What the computed depths are

Depths are computed in an order of leaving, whatever the order is. A dependency counts with its own
depth if it comes before the node in that order; any other counts one step and is never a parent.

- `Best.Optimal`: the best way over some dependencies is as deep as the deepest of them leads.
- `Depths.Sound`: the depths, the parents and the order fit the dependencies.
- `Depths.parent_induction`: induction along the parents, from a node without one.
- `Depths.deepest_eq_of_perm`: the entries may be listed in any order.
- `Depths.maxDepth_le_iff`, `Depths.exists_criticalPath_eq_chain`: the critical path is the chain of
  the first of the deepest nodes.
-/

namespace DepGraph

open scoped List

/-! ## The best way on -/

namespace Best

variable {depths : Std.TreeMap String Nat} {dependencies : List String} {best : Best}

/-- The best way over some dependencies. -/
structure Optimal (depths : Std.TreeMap String Nat) (dependencies : List String) (best : Best) :
    Prop where
  ge : ∀ dependency ∈ dependencies, ∀ depth, depths[dependency]? = some depth →
    depth + 1 ≤ best.depth
  parent : ∀ parent, best.parent = some parent → parent ∈ dependencies
  /-- Only where no dependency can be followed there is no parent. -/
  cut : best.parent = none →
    best.depth ≤ 1 ∧ ∀ dependency ∈ dependencies, depths[dependency]? = none

theorem optimal_nil : Optimal depths [] {} where
  ge := by simp
  parent := by simp
  cut := by simp

/-- The way over one more dependency is taken if no way so far leads deeper. -/
theorem Optimal.take (h : Optimal depths dependencies best) {dependency : String} {depth : Nat}
    (hdepth : depths[dependency]? = some depth) (hbetter : best.depth ≤ depth + 1) :
    Optimal depths (dependencies ++ [dependency]) ⟨depth + 1, some dependency⟩ where
  ge := by
    refine List.forall_mem_append.mpr ⟨fun other hother depth' hdepth' => ?_, ?_⟩
    · exact (h.ge other hother depth' hdepth').trans hbetter
    · refine List.forall_mem_singleton.mpr fun depth' hdepth' => ?_
      obtain rfl : depth = depth' := Option.some.inj (hdepth.symm.trans hdepth')
      exact Nat.le_refl _
  parent := by
    rintro parent ⟨⟩
    exact List.mem_append_right _ List.mem_cons_self
  cut := nofun

/-- The way so far is kept if the one more dependency leads no deeper, and cannot be followed if
none could be so far. -/
theorem Optimal.keep (h : Optimal depths dependencies best) {dependency : String}
    (hdepth : ∀ depth, depths[dependency]? = some depth → depth + 1 ≤ best.depth)
    (hcut : best.parent = none → depths[dependency]? = none) :
    Optimal depths (dependencies ++ [dependency]) best where
  ge := List.forall_mem_append.mpr ⟨h.ge, List.forall_mem_singleton.mpr hdepth⟩
  parent parent hparent := List.mem_append_left _ (h.parent parent hparent)
  cut hnone := by
    obtain ⟨hdepth, hunknown⟩ := h.cut hnone
    exact ⟨hdepth, List.forall_mem_append.mpr
      ⟨hunknown, List.forall_mem_singleton.mpr (hcut hnone)⟩⟩

/-- A way of depth zero leads over nothing that can be followed, so it gives way to one step. -/
theorem Optimal.step (h : Optimal depths dependencies best) {dependency : String}
    (hunknown : depths[dependency]? = none) (hzero : best.depth < 1) :
    Optimal depths (dependencies ++ [dependency]) ⟨1, none⟩ := by
  have hall : ∀ other ∈ dependencies ++ [dependency], depths[other]? = none := by
    refine List.forall_mem_append.mpr ⟨fun other hother => ?_,
      List.forall_mem_singleton.mpr hunknown⟩
    match hdepth : depths[other]? with
    | none => rfl
    | some depth =>
      have := h.ge other hother depth hdepth
      omega
  refine { ge := ?_, parent := nofun, cut := fun _ => ⟨Nat.le_refl 1, hall⟩ }
  intro other hother depth hdepth
  rw [hall other hother] at hdepth
  cases hdepth

theorem Optimal.better (h : Optimal depths dependencies best) (dependency : String) :
    Optimal depths (dependencies ++ [dependency]) (better depths best dependency) := by
  unfold Best.better
  split
  · next depth hdepth =>
    have heq : ∀ depth', depths[dependency]? = some depth' → depth' = depth :=
      fun depth' hdepth' => Option.some.inj (hdepth'.symm.trans hdepth)
    split
    · next hbetter =>
      simp only [Bool.or_eq_true, Bool.and_eq_true, decide_eq_true_eq, beq_iff_eq] at hbetter
      exact h.take hdepth (by omega)
    · next hworse =>
      simp only [Bool.or_eq_true, Bool.and_eq_true, decide_eq_true_eq, beq_iff_eq, not_or,
        not_and, Option.isNone_iff_eq_none] at hworse
      refine h.keep (fun depth' hdepth' => ?_) fun hnone => ?_
      · rw [heq depth' hdepth']
        omega
      · -- a way that cannot be followed would have given way to this one
        have hone := (h.cut hnone).1
        have hdeeper := hworse.2 hnone
        omega
  · next hunknown =>
    split
    · next hzero => exact h.step hunknown hzero
    · refine h.keep (fun depth hdepth => ?_) fun _ => hunknown
      rw [hunknown] at hdepth
      cases hdepth

theorem optimal_among (depths : Std.TreeMap String Nat) (dependencies : List String) :
    Optimal depths dependencies (among depths dependencies) := by
  induction dependencies using List.reverseRecOn with
  | nil => exact optimal_nil
  | append_singleton dependencies dependency ih =>
    unfold among at ih ⊢
    rw [List.foldl_concat]
    exact ih.better dependency

end Best

namespace Depths

variable {d : Depths} {next : String → List String} {id : String}

theorem getElem?_depths_of_mem (h : id ∈ d.depths) : d.depths[id]? = some (d.depthOf id) := by
  rw [Std.TreeMap.mem_iff_isSome_getElem?] at h
  obtain ⟨depth, hdepth⟩ := Option.isSome_iff_exists.mp h
  rw [depthOf, hdepth, Option.getD_some]

/-- Only what has been left has a parent. -/
theorem mem_depths_of_parent {parent : String} (h : d.parents[id]? = some parent) :
    id ∈ d.depths := by
  obtain ⟨depth, -, hdepth⟩ := d.depth_parent id parent h
  rw [Std.TreeMap.mem_iff_isSome_getElem?, hdepth]
  rfl

/-! ## Leaving a node -/

section Complete

variable (hnew : id ∉ d.depths) (dependencies : List String)

include hnew

theorem order_complete :
    (d.complete id dependencies).order = d.order ++ [id] := by
  unfold complete order
  rw [dif_neg hnew]
  exact Array.toList_push

theorem getElem?_depths_complete (other : String) :
    (d.complete id dependencies).depths[other]? =
      if id = other then some (Best.among d.depths dependencies).depth else d.depths[other]? := by
  unfold complete
  rw [dif_neg hnew]
  simp only [Std.TreeMap.getElem?_insert, Std.compare_eq_iff_eq]

theorem depthOf_complete (other : String) :
    (d.complete id dependencies).depthOf other =
      if id = other then (Best.among d.depths dependencies).depth else d.depthOf other := by
  unfold depthOf
  rw [getElem?_depths_complete hnew]
  split <;> rfl

theorem getElem?_parents_complete (other : String) :
    (d.complete id dependencies).parents[other]? =
      if id = other then (Best.among d.depths dependencies).parent else d.parents[other]? := by
  unfold complete
  rw [dif_neg hnew]
  show (d.parentsWith id (Best.among d.depths dependencies).parent)[other]? = _
  unfold parentsWith
  split
  · next parent hparent =>
    simp only [Std.TreeMap.getElem?_insert, Std.compare_eq_iff_eq]
    rw [hparent]
  · next hnone =>
    rw [hnone]
    split
    · next heq =>
      subst heq
      exact Option.eq_none_iff_forall_ne_some.mpr fun parent hparent =>
        hnew (mem_depths_of_parent hparent)
    · rfl

end Complete

/-! ## Leaving nodes in an order -/

/-- The depth and the parent of a node fit its dependencies. A dependency that was left before
counts, and any other does not. -/
structure Fits (next : String → List String) (d : Depths) (id : String) : Prop where
  ge : ∀ dependency ∈ next id, [dependency, id] <+ d.order →
    d.depthOf dependency + 1 ≤ d.depthOf id
  parent : ∀ parent, d.parents[id]? = some parent → parent ∈ next id ∧ [parent, id] <+ d.order
  /-- Only where no dependency was left before there is no parent. -/
  cut : d.parents[id]? = none →
    d.depthOf id ≤ 1 ∧ ∀ dependency ∈ next id, ¬ [dependency, id] <+ d.order
  zero_iff : d.depthOf id = 0 ↔ next id = []

/-- The depths, the parents and the order of leaving fit the dependencies. -/
structure Sound (next : String → List String) (d : Depths) : Prop where
  mem_iff : ∀ id, id ∈ d.depths ↔ id ∈ d.order
  nodup : d.order.Nodup
  fits : ∀ id ∈ d.order, Fits next d id

theorem sound_empty (next : String → List String) : Sound next {} where
  mem_iff := by simp [order]
  nodup := List.nodup_nil
  fits := by simp [order]

/-- What comes before the last node is everything else. -/
theorem pair_sublist_concat_iff {ids : List String} {u v : String} (hnew : id ∉ ids) :
    [u, v] <+ ids ++ [id] ↔ if id = v then u ∈ ids else [u, v] <+ ids := by
  rw [← List.reverse_sublist, List.reverse_concat]
  show [v, u] <+ id :: ids.reverse ↔ _
  rw [List.cons_sublist_cons', List.singleton_sublist, List.mem_reverse]
  by_cases heq : id = v
  · rw [if_pos heq]
    have hnot : ¬ [v, u] <+ ids.reverse := fun hbefore =>
      hnew (heq ▸ List.mem_reverse.mp (hbefore.subset List.mem_cons_self))
    rw [or_iff_right hnot]
    exact and_iff_right heq.symm
  · rw [if_neg heq, or_iff_left fun hlast => heq hlast.1.symm, ← List.reverse_sublist,
      List.reverse_reverse]
    rfl

section Sound

variable (h : Sound next d) (hnew : id ∉ d.depths)

include h hnew

theorem Sound.not_mem_order : id ∉ d.order :=
  mt (h.mem_iff id).mpr hnew

/-- The node that is left now fits, because its dependencies were compared with the depths so
far. -/
theorem Sound.fits_complete_self : Fits next (d.complete id (next id)) id := by
  have hbest := Best.optimal_among d.depths (next id)
  have horder := order_complete hnew (next id)
  have hbefore : ∀ dependency, [dependency, id] <+ (d.complete id (next id)).order ↔
      dependency ∈ d.order := by
    intro dependency
    rw [horder, pair_sublist_concat_iff (h.not_mem_order hnew), if_pos rfl]
  have hdepth : (d.complete id (next id)).depthOf id = (Best.among d.depths (next id)).depth := by
    rw [depthOf_complete hnew, if_pos rfl]
  have hparent : (d.complete id (next id)).parents[id]? =
      (Best.among d.depths (next id)).parent := by
    rw [getElem?_parents_complete hnew, if_pos rfl]
  refine { ge := ?_, parent := ?_, cut := ?_, zero_iff := ?_ }
  · intro dependency hdependency hleft
    rw [hbefore] at hleft
    rw [hdepth, depthOf_complete hnew, if_neg (by rintro rfl; exact h.not_mem_order hnew hleft)]
    exact hbest.ge dependency hdependency _
      (getElem?_depths_of_mem ((h.mem_iff dependency).mpr hleft))
  · intro parent hsome
    rw [hparent] at hsome
    obtain ⟨depth, hknown, -⟩ := Best.follows_among d.depths (next id) parent hsome
    refine ⟨hbest.parent parent hsome, (hbefore parent).mpr ((h.mem_iff parent).mp ?_)⟩
    rw [Std.TreeMap.mem_iff_isSome_getElem?, hknown]
    rfl
  · intro hnone
    rw [hparent] at hnone
    obtain ⟨hone, hunknown⟩ := hbest.cut hnone
    refine ⟨hdepth.trans_le hone, fun dependency hdependency hleft => ?_⟩
    have hmem := (h.mem_iff dependency).mpr ((hbefore dependency).mp hleft)
    rw [Std.TreeMap.mem_iff_isSome_getElem?, hunknown dependency hdependency] at hmem
    exact Bool.false_ne_true hmem
  · rw [hdepth]
    exact Best.depth_among_eq_zero_iff _ _

/-- Nothing changes for a node that was left before, nor for what was left before it. -/
theorem Sound.fits_complete_of_mem {other : String} (hother : other ∈ d.order) :
    Fits next (d.complete id (next id)) other := by
  have hne : ∀ {known}, known ∈ d.order → id ≠ known := by
    rintro known hknown rfl
    exact h.not_mem_order hnew hknown
  have hbefore : ∀ dependency, [dependency, other] <+ (d.complete id (next id)).order ↔
      [dependency, other] <+ d.order := by
    intro dependency
    rw [order_complete hnew, pair_sublist_concat_iff (h.not_mem_order hnew), if_neg (hne hother)]
  have hdepth : ∀ {known}, known ∈ d.order →
      (d.complete id (next id)).depthOf known = d.depthOf known := by
    intro known hknown
    rw [depthOf_complete hnew, if_neg (hne hknown)]
  have hparent : (d.complete id (next id)).parents[other]? = d.parents[other]? := by
    rw [getElem?_parents_complete hnew, if_neg (hne hother)]
  have hfits := h.fits other hother
  refine { ge := ?_, parent := ?_, cut := ?_, zero_iff := ?_ }
  · intro dependency hdependency hleft
    rw [hbefore] at hleft
    rw [hdepth hother, hdepth (hleft.subset List.mem_cons_self)]
    exact hfits.ge dependency hdependency hleft
  · intro parent hsome
    rw [hparent] at hsome
    rw [hbefore]
    exact hfits.parent parent hsome
  · intro hnone
    rw [hparent] at hnone
    simp only [hdepth hother, hbefore]
    exact hfits.cut hnone
  · rw [hdepth hother]
    exact hfits.zero_iff

end Sound

/-- Leaving one more node, or one that was left already, keeps everything fitting. -/
theorem Sound.complete (h : Sound next d) (id : String) :
    Sound next (d.complete id (next id)) := by
  by_cases hnew : id ∈ d.depths
  · unfold Depths.complete
    rw [dif_pos hnew]
    exact h
  refine { mem_iff := ?_, nodup := ?_, fits := ?_ }
  · intro other
    rw [order_complete hnew, List.mem_append, List.mem_singleton, ← h.mem_iff,
      Std.TreeMap.mem_iff_isSome_getElem?, getElem?_depths_complete hnew]
    by_cases heq : id = other
    · simp [heq]
    · rw [if_neg heq, or_iff_left (Ne.symm heq), Std.TreeMap.mem_iff_isSome_getElem?]
  · rw [order_complete hnew, List.nodup_append_comm]
    exact List.nodup_cons.mpr ⟨h.not_mem_order hnew, h.nodup⟩
  · rw [order_complete hnew]
    exact List.forall_mem_append.mpr ⟨fun other hother => h.fits_complete_of_mem hnew hother,
      List.forall_mem_singleton.mpr (h.fits_complete_self hnew)⟩

theorem ofOrder_concat (order : List String) :
    ofOrder next (order ++ [id]) = (ofOrder next order).complete id (next id) :=
  List.foldl_concat _ _ _ _

/-- Whatever the order is, the depths fit the dependencies. -/
theorem sound_ofOrder (next : String → List String) (order : List String) :
    Sound next (ofOrder next order) := by
  induction order using List.reverseRecOn with
  | nil => exact sound_empty next
  | append_singleton order id ih =>
    rw [ofOrder_concat]
    exact ih.complete id

/-- The nodes are left in the given order, if it names none twice. -/
theorem order_ofOrder {order : List String} (h : order.Nodup) :
    (ofOrder next order).order = order := by
  induction order using List.reverseRecOn with
  | nil => rfl
  | append_singleton order id ih =>
    rw [List.nodup_append_comm] at h
    obtain ⟨hnew, hnodup⟩ := List.nodup_cons.mp h
    have hbefore := ih hnodup
    rw [ofOrder_concat, order_complete, hbefore]
    rwa [(sound_ofOrder next order).mem_iff, hbefore]

/-! ## Chains -/

/-- Induction along the parents, from a node without one. -/
@[elab_as_elim]
theorem parent_induction (d : Depths) {motive : String → Prop}
    (last : ∀ id, d.parents[id]? = none → motive id)
    (next : ∀ id parent, d.parents[id]? = some parent → motive parent → motive id) (id : String) :
    motive id :=
  match h : d.parents[id]? with
  | none => last id h
  | some parent => next id parent h (d.parent_induction last next parent)
termination_by d.depthOf id
decreasing_by rw [d.depthOf_eq_succ h]; exact Nat.lt_succ_self _

theorem follow_of_none (h : d.parents[id]? = none) (sofar : Array String) :
    d.follow sofar id = sofar.push id := by
  rw [follow]
  split
  · next hparent => rw [h] at hparent; cases hparent
  · rfl

theorem follow_of_some {parent : String} (h : d.parents[id]? = some parent)
    (sofar : Array String) : d.follow sofar id = d.follow (sofar.push id) parent := by
  rw [follow]
  split
  · next hparent =>
    rw [h] at hparent
    obtain rfl := Option.some.inj hparent
    rfl
  · next hparent => rw [h] at hparent; cases hparent

/-- Following only adds to the nodes so far. -/
theorem toList_follow (d : Depths) (sofar : Array String) (id : String) :
    (d.follow sofar id).toList = sofar.toList ++ d.chain id := by
  unfold chain
  induction id using d.parent_induction generalizing sofar with
  | last id h =>
    rw [follow_of_none h, follow_of_none h, Array.toList_push, Array.toList_push]
    rfl
  | next id parent h ih =>
    rw [follow_of_some h, follow_of_some h, ih (sofar.push id), ih (#[].push id),
      Array.toList_push, List.append_assoc]
    rfl

theorem chain_of_none (h : d.parents[id]? = none) : d.chain id = [id] := by
  unfold chain
  rw [follow_of_none h]
  rfl

theorem chain_of_some {parent : String} (h : d.parents[id]? = some parent) :
    d.chain id = id :: d.chain parent := by
  rw [chain, follow_of_some h, toList_follow]
  rfl

theorem head?_chain (d : Depths) (id : String) : (d.chain id).head? = some id := by
  match h : d.parents[id]? with
  | none => rw [chain_of_none h, List.head?_cons]
  | some parent => rw [chain_of_some h, List.head?_cons]

/-- A chain goes from each node to its parent. -/
theorem isChain_chain (d : Depths) (id : String) :
    (d.chain id).IsChain fun u v => d.parents[u]? = some v := by
  induction id using d.parent_induction with
  | last id h =>
    rw [chain_of_none h]
    exact List.isChain_singleton id
  | next id parent h ih =>
    rw [chain_of_some h]
    refine List.isChain_cons.mpr ⟨fun other hother => ?_, ih⟩
    rw [head?_chain] at hother
    obtain rfl : parent = other := Option.some.inj hother
    exact h

/-- A chain goes on as long as there is a parent, so that its length counts the steps in depth. -/
theorem exists_last_chain (d : Depths) (id : String) :
    ∃ last, (d.chain id).getLast? = some last ∧ d.parents[last]? = none ∧
      (d.chain id).length + d.depthOf last = d.depthOf id + 1 := by
  induction id using d.parent_induction with
  | last id h =>
    rw [chain_of_none h]
    exact ⟨id, rfl, h, Nat.add_comm _ _⟩
  | next id parent h ih =>
    obtain ⟨last, hlast, hnone, hlength⟩ := ih
    rw [chain_of_some h]
    refine ⟨last, ?_, hnone, ?_⟩
    · rw [List.getLast?_cons, hlast]
      rfl
    · rw [List.length_cons, d.depthOf_eq_succ h]
      omega

/-- No chain meets a node twice, for the depth falls at every step. -/
theorem nodup_chain (d : Depths) (id : String) : (d.chain id).Nodup := by
  have hfalls : ((d.chain id).map d.depthOf).IsChain (· > ·) := by
    refine (List.isChain_map d.depthOf).mpr ((d.isChain_chain id).imp fun u v huv => ?_)
    rw [d.depthOf_eq_succ huv]
    exact Nat.lt_succ_self _
  rw [List.isChain_iff_pairwise] at hfalls
  exact List.Nodup.of_map d.depthOf (hfalls.imp fun hgt => Nat.ne_of_gt hgt)

/-! ## The critical path -/

/-- The deepest of some entries, and of several the one whose identifier comes first. -/
structure Deepest (entries : List (String × Nat)) (best : String × Nat) : Prop where
  mem : best ∈ entries
  ge : ∀ entry ∈ entries, entry.2 ≤ best.2
  first : ∀ entry ∈ entries, entry.2 = best.2 → best.1 ≤ entry.1

section Deepest

variable {entries entries' : List (String × Nat)} {best best' : String × Nat}

/-- One more entry is compared with the deepest so far. -/
theorem Deepest.deeper (h : Deepest entries best) (entry : String × Nat) :
    ∃ best', Depths.deeper (some best) entry = some best' ∧ Deepest (entries ++ [entry]) best' := by
  unfold Depths.deeper
  dsimp only
  split
  · next hbetter =>
    simp only [Bool.or_eq_true, Bool.and_eq_true, decide_eq_true_eq, beq_iff_eq] at hbetter
    refine ⟨entry, rfl, List.mem_append_right _ List.mem_cons_self, ?_, ?_⟩
    · refine List.forall_mem_append.mpr ⟨fun other hother => ?_,
        List.forall_mem_singleton.mpr (Nat.le_refl _)⟩
      have := h.ge other hother
      omega
    · refine List.forall_mem_append.mpr ⟨fun other hother heq => ?_,
        List.forall_mem_singleton.mpr fun _ => String.le_refl _⟩
      have := h.ge other hother
      -- the new entry is no deeper than this one, so it was taken because it comes first
      obtain ⟨hsame, hfirst⟩ := hbetter.resolve_left (by omega)
      exact String.le_trans (Std.le_of_lt hfirst) (h.first other hother (by omega))
  · next hworse =>
    simp only [Bool.or_eq_true, Bool.and_eq_true, decide_eq_true_eq, beq_iff_eq, not_or, not_and]
      at hworse
    refine ⟨best, rfl, List.mem_append_left _ h.mem, ?_, ?_⟩
    · exact List.forall_mem_append.mpr
        ⟨h.ge, List.forall_mem_singleton.mpr (Nat.le_of_not_lt hworse.1)⟩
    · exact List.forall_mem_append.mpr
        ⟨h.first, List.forall_mem_singleton.mpr fun heq => hworse.2 heq.symm⟩

theorem exists_deepest (h : entries ≠ []) :
    ∃ best, deepest entries = some best ∧ Deepest entries best := by
  induction entries using List.reverseRecOn with
  | nil => exact absurd rfl h
  | append_singleton entries entry ih =>
    unfold deepest at ih ⊢
    rw [List.foldl_concat]
    by_cases hnil : entries = []
    · subst hnil
      refine ⟨entry, rfl, { mem := List.mem_cons_self, ge := ?_, first := ?_ }⟩
      · intro other hother
        obtain rfl := List.mem_singleton.mp hother
        exact Nat.le_refl _
      · intro other hother _
        obtain rfl := List.mem_singleton.mp hother
        exact String.le_refl _
    · obtain ⟨best, hbest, hdeepest⟩ := ih hnil
      rw [hbest]
      exact hdeepest.deeper entry

/-- There is one deepest entry. -/
theorem Deepest.unique (h : Deepest entries best) (h' : Deepest entries best') : best = best' := by
  have hdepth : best.2 = best'.2 := Nat.le_antisymm (h'.ge best h.mem) (h.ge best' h'.mem)
  have hid : best.1 = best'.1 :=
    String.le_antisymm (h.first best' h'.mem hdepth.symm) (h'.first best h.mem hdepth)
  exact Prod.ext hid hdepth

theorem Deepest.of_perm (h : Deepest entries best) (hperm : entries ~ entries') :
    Deepest entries' best where
  mem := hperm.mem_iff.mp h.mem
  ge entry hentry := h.ge entry (hperm.mem_iff.mpr hentry)
  first entry hentry := h.first entry (hperm.mem_iff.mpr hentry)

/-- The deepest entry does not depend on the order in which the entries are listed. -/
theorem deepest_eq_of_perm (h : entries ~ entries') : deepest entries = deepest entries' := by
  by_cases hnil : entries = []
  · subst hnil
    rw [h.nil_eq]
  have hnil' : entries' ≠ [] := by
    rintro rfl
    exact hnil h.eq_nil
  obtain ⟨best, hbest, hdeepest⟩ := exists_deepest hnil
  obtain ⟨best', hbest', hdeepest'⟩ := exists_deepest hnil'
  rw [hbest, hbest', (hdeepest.of_perm h).unique hdeepest']

end Deepest

theorem foldl_max_le_iff (entries : List (String × Nat)) (greatest bound : Nat) :
    entries.foldl (fun greatest entry => max greatest entry.2) greatest ≤ bound ↔
      greatest ≤ bound ∧ ∀ entry ∈ entries, entry.2 ≤ bound := by
  induction entries generalizing greatest with
  | nil => simp
  | cons entry entries ih =>
    rw [List.foldl_cons, ih, Nat.max_le, List.forall_mem_cons, and_assoc]

theorem maxDepth_le_iff (d : Depths) (bound : Nat) :
    d.maxDepth ≤ bound ↔ ∀ entry ∈ d.depths.toList, entry.2 ≤ bound := by
  unfold maxDepth
  rw [Std.TreeMap.foldl_eq_foldl_toList, foldl_max_le_iff]
  exact and_iff_right (Nat.zero_le bound)

theorem mem_toList_depths_iff (d : Depths) (id : String) (depth : Nat) :
    (id, depth) ∈ d.depths.toList ↔ id ∈ d.depths ∧ d.depthOf id = depth := by
  rw [Std.TreeMap.mem_toList_iff_getElem?_eq_some]
  constructor
  · intro hdepth
    refine ⟨Std.TreeMap.mem_iff_isSome_getElem?.mpr (by rw [hdepth]; rfl), ?_⟩
    rw [depthOf, hdepth, Option.getD_some]
  · rintro ⟨hid, rfl⟩
    exact getElem?_depths_of_mem hid

theorem depthOf_le_maxDepth (h : id ∈ d.depths) : d.depthOf id ≤ d.maxDepth :=
  (d.maxDepth_le_iff _).mp (Nat.le_refl _) (id, d.depthOf id)
    ((d.mem_toList_depths_iff id _).mpr ⟨h, rfl⟩)

/-- The critical path is the chain of a deepest node, the first of them by identifier. -/
theorem exists_criticalPath_eq_chain (h : id ∈ d.depths) :
    ∃ first, d.criticalPath = d.chain first ∧ first ∈ d.depths ∧
      d.depthOf first = d.maxDepth ∧
      ∀ other ∈ d.depths, d.depthOf other = d.maxDepth → first ≤ other := by
  have hentry := (d.mem_toList_depths_iff id _).mpr ⟨h, rfl⟩
  obtain ⟨⟨first, depth⟩, hbest, hdeepest⟩ := exists_deepest (List.ne_nil_of_mem hentry)
  obtain ⟨hfirst, rfl⟩ := (d.mem_toList_depths_iff first depth).mp hdeepest.mem
  have hmax : d.depthOf first = d.maxDepth :=
    Nat.le_antisymm (depthOf_le_maxDepth hfirst) ((d.maxDepth_le_iff _).mpr hdeepest.ge)
  refine ⟨first, ?_, hfirst, hmax, fun other hother heq => ?_⟩
  · unfold criticalPath
    rw [hbest]
  · exact hdeepest.first (other, d.depthOf other) ((d.mem_toList_depths_iff other _).mpr
      ⟨hother, rfl⟩) (heq.trans hmax.symm)

end Depths

end DepGraph

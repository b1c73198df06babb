import DepGraph.Proofs.Graph.Walk
import DepGraph.Proofs.Search.Reached

/-!
# The cycles that a search closes

Where the search meets a node that is still on the way, it closes a cycle with an edge from the
innermost node back to that one. Every other edge that it follows leads to a node that is left
earlier. So the completion order tells which edges close cycles, and which cannot be on one by
themselves.

- `before_or_closing`: an edge leads to a node that is left earlier, or it closes a cycle.
- `simple_of_mem_cycles`: the members of a cycle are joined along the way, and stand in the
  completion order from the last to the first.
- `nodup_closings`: no edge closes two cycles, if no node lists a node twice.
- `cycles_eq_nil_iff`: a search closes a cycle exactly if the relation has one.
-/

namespace DepGraph.DepthFirst

open scoped List

/-! ## Closing edges -/

/-- The edge that closes a cycle leads from its last member to the first. -/
def closingEdge? (members : List String) : Option (String × String) :=
  members.getLast?.bind fun last => members.head?.map fun first => (last, first)

theorem closingEdge?_eq_some_iff {members : List String} {u v : String} :
    closingEdge? members = some (u, v) ↔ members.getLast? = some u ∧ members.head? = some v := by
  unfold closingEdge?
  rw [Option.bind_eq_some_iff]
  constructor
  · rintro ⟨last, hlast, hedge⟩
    obtain ⟨first, hfirst, hedge⟩ := Option.map_eq_some_iff.mp hedge
    obtain ⟨rfl, rfl⟩ := Prod.mk.inj hedge
    exact ⟨hlast, hfirst⟩
  · rintro ⟨hlast, hfirst⟩
    exact ⟨u, hlast, by rw [hfirst, Option.map_some]⟩

/-- The edges that close the cycles so far. -/
def closings (past : List Event) : List (Option (String × String)) :=
  (past.filterMap Event.closed?).map closingEdge?

theorem closings_append (past past' : List Event) :
    closings (past ++ past') = closings past ++ closings past' := by
  simp [closings]

theorem closings_closed (members : List String) :
    closings [.closed members] = [closingEdge? members] := rfl

/-- The nodes from an active node on, backwards, are the innermost part of the way. -/
theorem reverse_pathFrom_prefix {s : State} {id : String} (h : id ∈ s.way) :
    (s.pathFrom id).reverse <+: s.way := by
  show (id :: (s.way.takeWhile (· != id)).reverse).reverse <+: s.way
  rw [List.reverse_cons, List.reverse_reverse]
  generalize s.way = way at h
  induction way with
  | nil => exact nomatch h
  | cons other way ih =>
    by_cases heq : other = id
    · subst heq
      simp
    · have hne : (other != id) = true := by simpa using heq
      simp only [List.takeWhile_cons, hne, if_true, List.cons_append, List.cons_prefix_cons]
      exact ⟨trivial, ih ((List.mem_cons.mp h).resolve_left (Ne.symm heq))⟩

theorem closingEdge?_pathFrom {marks : Std.TreeMap String Mark} {frame : Frame}
    {frames : List Frame} {starts : List String} {id : String}
    (h : id ∈ State.way ⟨marks, frame :: frames, starts⟩) :
    closingEdge? (State.pathFrom ⟨marks, frame :: frames, starts⟩ id) = some (frame.id, id) := by
  obtain ⟨outer, houter⟩ := reverse_pathFrom_prefix h
  refine closingEdge?_eq_some_iff.mpr ⟨?_, rfl⟩
  rw [List.getLast?_eq_head?_reverse]
  generalize hinner : (State.pathFrom ⟨marks, frame :: frames, starts⟩ id).reverse = inner
  rw [hinner] at houter
  cases inner with
  | nil => exact absurd (List.reverse_eq_nil_iff.mp hinner) (List.cons_ne_nil _ _)
  | cons first inner =>
    rw [List.cons_append] at houter
    rw [List.head?_cons, (List.cons.inj houter).1]

/-! ## Every edge is accounted for -/

/-- An edge that was followed leads to a node that is left earlier, or it closes a cycle. -/
def Settled (past : List Event) (s : State) (source target : String) : Prop :=
  [target, source] <+ finishing past s ∨ some (source, target) ∈ closings past

theorem Settled.move {a : Adjacency} {past : List Event} {s next : State} {event : Option Event}
    {source target : String} (h : Settled past s source target) (hmove : Move a s event next) :
    Settled (past ++ event.toList) next source target := by
  rcases h with hbefore | hcloses
  · exact .inl (hbefore.trans (finishing_sublist past hmove))
  · refine .inr ?_
    rw [closings_append]
    exact List.mem_append_left _ hcloses

/-- All that was followed from a node is accounted for; from a node on the way, some of what is next
to it is still to be followed. -/
structure Examined (a : Adjacency) (past : List Event) (s : State) : Prop where
  left : ∀ u ∈ past.filterMap Event.left?, ∀ v ∈ a.next u, Settled past s u v
  way : ∀ f ∈ s.frames, ∀ v ∈ a.next f.id, v ∈ f.rest ∨ Settled past s f.id v

theorem Examined.init (a : Adjacency) : Examined a [] { starts := a.keys } where
  left := by simp
  way := by simp

/-- A step keeps what was accounted for if it leaves no node and if what it follows is accounted
for. -/
theorem Examined.of_way {a : Adjacency} {past : List Event} {s next : State}
    {event : Option Event} (h : Examined a past s) (hmove : Move a s event next)
    (hleft : event.toList.filterMap Event.left? = [])
    (hway : ∀ f ∈ next.frames, ∀ v ∈ a.next f.id,
      v ∈ f.rest ∨ Settled (past ++ event.toList) next f.id v) :
    Examined a (past ++ event.toList) next where
  left := by
    rw [List.filterMap_append, hleft, List.append_nil]
    exact fun u hu v hv => (h.left u hu v hv).move hmove
  way := hway

/-- Following the next node from the innermost one accounts for one more edge. -/
theorem Examined.follow {a : Adjacency} {past : List Event} {marks : Std.TreeMap String Mark}
    {id next : String} {rest : List String} {frames : List Frame} {starts : List String}
    {event : Option Event} {s : State}
    (h : Examined a past ⟨marks, ⟨id, next :: rest⟩ :: frames, starts⟩)
    (hmove : Move a ⟨marks, ⟨id, next :: rest⟩ :: frames, starts⟩ event s)
    (hsettled : Settled (past ++ event.toList) s id next) :
    ∀ f ∈ (⟨id, rest⟩ :: frames : List Frame), ∀ v ∈ a.next f.id,
      v ∈ f.rest ∨ Settled (past ++ event.toList) s f.id v := by
  intro f hf v hv
  rcases List.mem_cons.mp hf with rfl | hf
  · rcases h.way _ List.mem_cons_self v hv with hrest | hsettled'
    · rcases List.mem_cons.mp hrest with rfl | hrest
      · exact .inr hsettled
      · exact .inl hrest
    · exact .inr (hsettled'.move hmove)
  · exact (h.way f (List.mem_cons_of_mem _ hf) v hv).imp_right fun hf => hf.move hmove

theorem Examined.move {a : Adjacency} {past : List Event} {s next : State} {event : Option Event}
    (h : Examined a past s) (hs : Shape a past s) (hmove : Move a s event next) :
    Examined a (past ++ event.toList) next := by
  cases hmove with
  | pass hmark => exact h.of_way (.pass hmark) rfl fun f hf => nomatch hf
  | @start marks id starts hmark =>
    refine h.of_way (.start hmark) rfl fun f hf v hv => .inl ?_
    rw [List.mem_singleton.mp hf] at hv ⊢
    exact hv
  | @leave marks id frames starts =>
    have hmove : Move a ⟨marks, ⟨id, []⟩ :: frames, starts⟩ _ _ := .leave
    refine { left := ?_, way := fun f hf v hv => ?_ }
    · intro u hu v hv
      rw [List.filterMap_append, List.mem_append] at hu
      rcases hu with hu | hu
      · exact (h.left u hu v hv).move hmove
      · obtain rfl : u = id := by simpa [Event.left?] using hu
        -- nothing is left to be followed from the node
        exact ((h.way _ List.mem_cons_self v hv).resolve_left List.not_mem_nil).move hmove
    · exact (h.way f (List.mem_cons_of_mem _ hf) v hv).imp_right fun hf => hf.move hmove
  | @enter marks id next rest frames starts hmark =>
    refine h.of_way (.enter hmark) rfl fun f hf => ?_
    rcases List.mem_cons.mp hf with rfl | hf
    · exact fun v hv => .inl hv
    · -- the node entered now is left before the one it was followed from
      refine h.follow (.enter hmark) (.inl ?_) f hf
      refine List.Sublist.trans ?_ (List.sublist_append_right _ _)
      exact List.Sublist.cons_cons _ (List.singleton_sublist.mpr List.mem_cons_self)
  | @close marks id next rest frames starts hmark =>
    refine h.of_way (.close hmark) rfl (h.follow (.close hmark) (.inr ?_))
    have hway := (hs.follow.active_iff next).mp hmark
    rw [closings_append]
    refine List.mem_append_right _ (List.mem_singleton.mpr ?_)
    exact (closingEdge?_pathFrom hway).symm
  | @skip marks id next rest frames starts hmark =>
    refine h.of_way (.skip hmark) rfl (h.follow (.skip hmark) (.inl ?_))
    have hleft := (hs.done_iff next).mp hmark
    rw [Option.toList_none, List.append_nil]
    exact (List.singleton_sublist.mpr hleft).append
      (List.singleton_sublist.mpr List.mem_cons_self)

theorem Reached.examined {a : Adjacency} {past : List Event} {s : State} (h : Reached a past s) :
    Examined a past s := by
  induction h with
  | init => exact Examined.init a
  | move hs hmove ih => exact ih.move hs.shape hmove

/-- **Every edge is accounted for**: it leads to a node that is left earlier, or it closes one of
the cycles. -/
theorem before_or_closing {a : Adjacency} {u v : String} (h : v ∈ a.next u) :
    [v, u] <+ completionOrder a ∨ some (u, v) ∈ (cycles a).map closingEdge? := by
  obtain ⟨marks, hreached⟩ := reached_events a
  -- the source is a key, so the search gets to leave it
  have hleft := mem_completionOrder_of_mem_keys (mem_keys_of_mem_next h)
  have hsettled := hreached.examined.left u hleft v h
  unfold Settled at hsettled
  rw [finishing_last] at hsettled
  exact hsettled

/-! ## Every cycle is simple -/

/-- The members of a closed cycle: they are left from the last to the first, each is next to the one
before it, and the first is next to the last. -/
structure Simple (a : Adjacency) (past : List Event) (s : State) (members : List String) : Prop where
  finishing : members.reverse <+ finishing past s
  linked : members.IsChain fun u v => v ∈ a.next u
  closed : ∃ u v, closingEdge? members = some (u, v) ∧ v ∈ a.next u

/-- The members of a cycle that is closed now are on the way. -/
theorem simple_pathFrom {a : Adjacency} {past : List Event} {marks : Std.TreeMap String Mark}
    {id next : String} {rest : List String} {frames : List Frame} {starts : List String}
    (h : Shape a past ⟨marks, ⟨id, next :: rest⟩ :: frames, starts⟩)
    (hmark : marks[next]? = some .active) :
    Simple a past ⟨marks, ⟨id, next :: rest⟩ :: frames, starts⟩
      (State.pathFrom ⟨marks, ⟨id, rest⟩ :: frames, starts⟩ next) := by
  have hway := (h.follow.active_iff next).mp hmark
  have hprefix := reverse_pathFrom_prefix hway
  refine { finishing := ?_, linked := ?_, closed := ⟨id, next, closingEdge?_pathFrom hway, ?_⟩ }
  · exact hprefix.sublist.trans (List.sublist_append_right _ _)
  · have hlinked : (State.way ⟨marks, ⟨id, rest⟩ :: frames, starts⟩).IsChain
        fun inner outer => inner ∈ a.next outer :=
      (List.isChain_map _).mpr h.follow.linked
    have hinner := List.IsChain.prefix hlinked hprefix
    exact List.isChain_reverse.mp hinner
  · exact (h.rest_suffix _ List.mem_cons_self).subset List.mem_cons_self

theorem Simple.move {a : Adjacency} {past : List Event} {s next : State} {event : Option Event}
    {members : List String} (h : Simple a past s members) (hmove : Move a s event next) :
    Simple a (past ++ event.toList) next members :=
  { h with finishing := h.finishing.trans (finishing_sublist past hmove) }

theorem Reached.simple {a : Adjacency} {past : List Event} {s : State} (h : Reached a past s) :
    ∀ members ∈ past.filterMap Event.closed?, Simple a past s members := by
  induction h with
  | init => exact fun members hmembers => nomatch hmembers
  | @move past s next event hs hmove ih =>
    intro members hmembers
    rw [List.filterMap_append, List.mem_append] at hmembers
    rcases hmembers with hold | hnew
    · exact (ih members hold).move hmove
    cases hmove with
    | close hmark =>
      obtain rfl : members = _ := List.mem_singleton.mp hnew
      exact (simple_pathFrom hs.shape hmark).move (.close hmark)
    | pass => exact nomatch hnew
    | start => exact nomatch hnew
    | leave => exact nomatch hnew
    | enter => exact nomatch hnew
    | skip => exact nomatch hnew

/-- **Every cycle is simple**: its members are left from the last to the first, each is next to the
one before it, and the first is next to the last. -/
theorem simple_of_mem_cycles {a : Adjacency} {members : List String} (h : members ∈ cycles a) :
    members.reverse <+ completionOrder a ∧ members.IsChain (fun u v => v ∈ a.next u) ∧
      ∃ u v, closingEdge? members = some (u, v) ∧ v ∈ a.next u := by
  obtain ⟨marks, hreached⟩ := reached_events a
  obtain ⟨hfinishing, hlinked, hclosed⟩ := hreached.simple members h
  rw [finishing_last] at hfinishing
  exact ⟨hfinishing, hlinked, hclosed⟩

/-! ## No edge closes two cycles -/

/-- The edges that closed a cycle are not followed again. -/
structure Spent (past : List Event) (s : State) : Prop where
  nodup : (closings past).Nodup
  entered : ∀ u v, some (u, v) ∈ closings past → u ∈ finishing past s
  spent : ∀ u v, some (u, v) ∈ closings past → ∀ f ∈ s.frames, f.id = u → v ∉ f.rest

theorem Spent.init (a : Adjacency) : Spent [] { starts := a.keys } where
  nodup := List.nodup_nil
  entered := by intro u v h; exact nomatch h
  spent := by intro u v h; exact nomatch h

/-- A step that closes no cycle keeps this if every frame it leaves was there before, with at least
as much to be followed, or belongs to a node that is new. -/
theorem Spent.of_frames {a : Adjacency} {past : List Event} {s next : State}
    {event : Option Event} (h : Spent past s) (hmove : Move a s event next)
    (hclosings : closings event.toList = [])
    (hframes : ∀ f ∈ next.frames, f.id ∉ finishing past s ∨
      ∃ g ∈ s.frames, g.id = f.id ∧ f.rest ⊆ g.rest) :
    Spent (past ++ event.toList) next := by
  have hsame : closings (past ++ event.toList) = closings past := by
    rw [closings_append, hclosings, List.append_nil]
  refine { nodup := ?_, entered := ?_, spent := ?_ }
  · rw [hsame]
    exact h.nodup
  · rw [hsame]
    exact fun u v huv => (finishing_sublist past hmove).subset (h.entered u v huv)
  · rw [hsame]
    rintro u v huv f hf rfl
    rcases hframes f hf with hnew | ⟨g, hg, hid, hrest⟩
    · exact absurd (h.entered _ v huv) hnew
    · exact fun hv => h.spent _ v huv g hg hid (hrest hv)

/-- An edge that closes a cycle did not close one before, because it was still to be followed, and
it is not to be followed again. -/
theorem Spent.close {a : Adjacency} {past : List Event} {marks : Std.TreeMap String Mark}
    {id next : String} {rest : List String} {frames : List Frame} {starts : List String}
    (hnext : (a.next id).Nodup) (h : Spent past ⟨marks, ⟨id, next :: rest⟩ :: frames, starts⟩)
    (hs : Shape a past ⟨marks, ⟨id, next :: rest⟩ :: frames, starts⟩)
    (hmark : marks[next]? = some .active) :
    Spent (past ++ [.closed (State.pathFrom ⟨marks, ⟨id, rest⟩ :: frames, starts⟩ next)])
      ⟨marks, ⟨id, rest⟩ :: frames, starts⟩ := by
  have hmove : Move a ⟨marks, ⟨id, next :: rest⟩ :: frames, starts⟩ _ _ := .close hmark
  have hgrows := (finishing_sublist past hmove).subset
  have hclosings : closings (past ++ [.closed
      (State.pathFrom ⟨marks, ⟨id, rest⟩ :: frames, starts⟩ next)]) =
      closings past ++ [some (id, next)] := by
    rw [closings_append, closings_closed,
      closingEdge?_pathFrom ((hs.follow.active_iff next).mp hmark)]
  have hcases : ∀ {u v}, some (u, v) ∈ closings past ++ [some (id, next)] →
      some (u, v) ∈ closings past ∨ u = id ∧ v = next := by
    intro u v huv
    rw [List.mem_append, List.mem_singleton] at huv
    exact huv.imp_right fun hlast => Prod.mk.inj (Option.some.inj hlast)
  have hway := hs.not_mem_outer
  have hrest : next ∉ rest :=
    (List.nodup_cons.mp ((hs.rest_suffix _ List.mem_cons_self).sublist.nodup hnext)).1
  refine { nodup := ?_, entered := ?_, spent := ?_ }
  · rw [hclosings, List.nodup_append_comm]
    exact List.nodup_cons.mpr
      ⟨fun hold => h.spent id next hold _ List.mem_cons_self rfl List.mem_cons_self, h.nodup⟩
  · rw [hclosings]
    intro u v huv
    rcases hcases huv with hold | ⟨rfl, -⟩
    · exact hgrows (h.entered u v hold)
    · exact hgrows (List.mem_append_right _ List.mem_cons_self)
  · rw [hclosings]
    intro u v huv f hf hid
    rcases List.mem_cons.mp hf with rfl | houter
    · rcases hcases huv with hold | ⟨-, rfl⟩
      · exact fun hv => h.spent u v hold _ List.mem_cons_self hid (List.mem_cons_of_mem _ hv)
      · exact hrest
    · rcases hcases huv with hold | ⟨rfl, -⟩
      · exact h.spent u v hold f (List.mem_cons_of_mem _ houter) hid
      · -- only the innermost frame is of the node that the edge leaves
        exact absurd (List.mem_map.mpr ⟨f, houter, hid⟩) hway

theorem Spent.move {a : Adjacency} (hnext : ∀ u, (a.next u).Nodup) {past : List Event}
    {s next : State} {event : Option Event} (h : Spent past s) (hs : Shape a past s)
    (hmove : Move a s event next) : Spent (past ++ event.toList) next := by
  cases hmove with
  | pass hmark => exact h.of_frames (Move.pass (a := a) hmark) rfl fun f hf => nomatch hf
  | start hmark =>
    refine h.of_frames (.start hmark) rfl fun f hf => .inl ?_
    rw [List.mem_singleton.mp hf]
    exact (hs.getElem?_eq_none_iff _).mp hmark
  | leave =>
    refine h.of_frames (.leave (a := a)) rfl fun f hf => .inr ?_
    exact ⟨f, List.mem_cons_of_mem _ hf, rfl, List.Subset.refl _⟩
  | enter hmark =>
    refine h.of_frames (.enter hmark) rfl fun f hf => ?_
    rcases List.mem_cons.mp hf with rfl | hf
    · exact .inl ((hs.getElem?_eq_none_iff _).mp hmark)
    · rcases List.mem_cons.mp hf with rfl | hf
      · exact .inr ⟨_, List.mem_cons_self, rfl, List.subset_cons_self _ _⟩
      · exact .inr ⟨f, List.mem_cons_of_mem _ hf, rfl, List.Subset.refl _⟩
  | close hmark => exact h.close (hnext _) hs hmark
  | skip hmark =>
    refine h.of_frames (Move.skip (a := a) hmark) rfl fun f hf => .inr ?_
    rcases List.mem_cons.mp hf with rfl | hf
    · exact ⟨_, List.mem_cons_self, rfl, List.subset_cons_self _ _⟩
    · exact ⟨f, List.mem_cons_of_mem _ hf, rfl, List.Subset.refl _⟩

theorem Reached.spent {a : Adjacency} (hnext : ∀ u, (a.next u).Nodup) {past : List Event}
    {s : State} (h : Reached a past s) : Spent past s := by
  induction h with
  | init => exact Spent.init a
  | move hs hmove ih => exact ih.move hnext hs.shape hmove

/-- **No edge closes two cycles**, if no node lists a node twice. -/
theorem nodup_closings {a : Adjacency} (hnext : ∀ u, (a.next u).Nodup) :
    ((cycles a).map closingEdge?).Nodup := by
  obtain ⟨marks, hreached⟩ := reached_events a
  exact (hreached.spent hnext).nodup

/-! ## What is acyclic -/

/-- Without the edges that close a cycle the relation is acyclic: all others lead to a node that is
left earlier. -/
theorem acyclic_open (a : Adjacency) :
    Acyclic fun u v => v ∈ a.next u ∧ some (u, v) ∉ (cycles a).map closingEdge? := by
  refine .of_rank (completionOrder a).idxOf fun u v huv => ?_
  refine idxOf_lt_of_sublist (nodup_completionOrder a) ?_
  exact (before_or_closing huv.1).resolve_right huv.2

/-- **Every closed walk is cut**: one of its links closes a cycle. -/
theorem exists_closing_link {a : Adjacency} {walk : List String}
    (h : ClosedWalk (fun u v => v ∈ a.next u) walk) :
    ∃ link ∈ Cycle.links walk, some link ∈ (cycles a).map closingEdge? := by
  by_contra hopen
  refine acyclic_open a walk ⟨h.1, fun link hlink => ⟨h.2 link hlink, fun hclosing => ?_⟩⟩
  exact hopen ⟨link, hlink, hclosing⟩

theorem closedWalk_of_mem_cycles {a : Adjacency} {members : List String} (h : members ∈ cycles a) :
    ClosedWalk (fun u v => v ∈ a.next u) members := by
  obtain ⟨-, hlinked, u, v, hclosing, hnext⟩ := simple_of_mem_cycles h
  obtain ⟨hlast, hfirst⟩ := closingEdge?_eq_some_iff.mp hclosing
  cases members with
  | nil => exact nomatch hlast
  | cons first rest =>
    obtain rfl : first = v := Option.some.inj hfirst
    rw [closedWalk_cons_iff, ← List.cons_append, List.isChain_append]
    refine ⟨hlinked, List.isChain_singleton first, ?_⟩
    rintro last hlast' next ⟨⟩
    obtain rfl : u = last := Option.some.inj (hlast.symm.trans hlast')
    exact hnext

/-- **A search closes no cycle exactly if there is none.** -/
theorem cycles_eq_nil_iff (a : Adjacency) :
    cycles a = [] ↔ Acyclic fun u v => v ∈ a.next u := by
  constructor
  · intro hnone walk hwalk
    obtain ⟨link, -, hclosing⟩ := exists_closing_link hwalk
    rw [hnone] at hclosing
    exact nomatch hclosing
  · intro hacyclic
    refine List.eq_nil_iff_forall_not_mem.mpr fun members hmembers => ?_
    exact hacyclic members (closedWalk_of_mem_cycles hmembers)

end DepGraph.DepthFirst

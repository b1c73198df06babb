import Mathlib.Data.List.Chain
import Mathlib.Data.List.Nodup
import DepGraph.Graph.DepthFirst

/-!
# How far a depth-first search has got

The search is a step function on marks, frames and starts. `Move` says once what a step can do, and
`Reached` is the search from its beginning: the events so far and the state they led to. What is
known of the search is an invariant of `Reached`.

- `finishing`: the nodes entered so far in the order in which they are left if nothing else is
  entered: those that were left, then those on the way, the innermost first. Leaving a node does not
  change this list, and entering one only inserts into it (`finishing_sublist`), so whatever stands
  before something else in it does so in the completion order.
- `Shape`: marks, frames and events tell the same about every node.
- `Through`: the states on the way, one after another.
- `exists_through_events`, `reached_events`: the search gets to where nothing is left to do.
-/

namespace DepGraph.DepthFirst

open scoped List

/-! ## One step -/

/-- One step of the search, by what happens in it. -/
inductive Move (a : Adjacency) : State → Option Event → State → Prop
  /-- A start is passed over, because it was entered before. -/
  | pass {marks : Std.TreeMap String Mark} {id : String} {starts : List String}
      (hmark : marks.contains id = true) :
      Move a ⟨marks, [], id :: starts⟩ none ⟨marks, [], starts⟩
  /-- The search starts anew. -/
  | start {marks : Std.TreeMap String Mark} {id : String} {starts : List String}
      (hmark : marks[id]? = none) :
      Move a ⟨marks, [], id :: starts⟩ (some (.entered id))
        (State.enter ⟨marks, [], starts⟩ a id)
  /-- The innermost node is left, because nothing is to be followed from it. -/
  | leave {marks : Std.TreeMap String Mark} {id : String} {frames : List Frame}
      {starts : List String} :
      Move a ⟨marks, ⟨id, []⟩ :: frames, starts⟩ (some (.left id))
        ⟨marks.insert id .done, frames, starts⟩
  /-- A node is followed that was not entered before. -/
  | enter {marks : Std.TreeMap String Mark} {id next : String} {rest : List String}
      {frames : List Frame} {starts : List String} (hmark : marks[next]? = none) :
      Move a ⟨marks, ⟨id, next :: rest⟩ :: frames, starts⟩ (some (.entered next))
        (State.enter ⟨marks, ⟨id, rest⟩ :: frames, starts⟩ a next)
  /-- A node is followed that is on the way, which closes a cycle. -/
  | close {marks : Std.TreeMap String Mark} {id next : String} {rest : List String}
      {frames : List Frame} {starts : List String} (hmark : marks[next]? = some .active) :
      Move a ⟨marks, ⟨id, next :: rest⟩ :: frames, starts⟩
        (some (.closed (State.pathFrom ⟨marks, ⟨id, rest⟩ :: frames, starts⟩ next)))
        ⟨marks, ⟨id, rest⟩ :: frames, starts⟩
  /-- A node is not followed, because it was left before. -/
  | skip {marks : Std.TreeMap String Mark} {id next : String} {rest : List String}
      {frames : List Frame} {starts : List String} (hmark : marks[next]? = some .done) :
      Move a ⟨marks, ⟨id, next :: rest⟩ :: frames, starts⟩ none
        ⟨marks, ⟨id, rest⟩ :: frames, starts⟩

theorem move_of_step {a : Adjacency} {s next : State} {event : Option Event}
    (h : s.step a = some (event, next)) : Move a s event next := by
  obtain ⟨marks, frames, starts⟩ := s
  match frames, starts with
  | [], [] => simp [State.step] at h
  | [], id :: starts =>
    simp only [State.step] at h
    split at h
    · next hmark =>
      cases h
      exact .pass hmark
    · next hmark =>
      cases h
      refine .start ?_
      rw [Std.TreeMap.contains_eq_isSome_getElem?] at hmark
      simpa using hmark
  | ⟨id, []⟩ :: frames, starts =>
    simp only [State.step] at h
    cases h
    exact .leave
  | ⟨id, other :: rest⟩ :: frames, starts =>
    simp only [State.step] at h
    split at h
    · next hmark => cases h; exact .enter hmark
    · next hmark => cases h; exact .close hmark
    · next hmark => cases h; exact .skip hmark

/-- The search only ends when nothing is on the way and no start is left. -/
theorem eq_nil_of_step_eq_none {a : Adjacency} {s : State} (h : s.step a = none) :
    s.frames = [] ∧ s.starts = [] := by
  obtain ⟨marks, frames, starts⟩ := s
  match frames, starts with
  | [], [] => exact ⟨rfl, rfl⟩
  | [], _ :: _ => simp only [State.step] at h; split at h <;> cases h
  | ⟨_, []⟩ :: _, _ => simp [State.step] at h
  | ⟨_, _ :: _⟩ :: _, _ => simp only [State.step] at h; split at h <;> cases h

/-! ## The search from its beginning -/

/-- The search gets to a state, with the events so far. -/
inductive Reached (a : Adjacency) : List Event → State → Prop
  | init : Reached a [] { starts := a.keys }
  | move {past : List Event} {s next : State} {event : Option Event} (hs : Reached a past s)
      (hmove : Move a s event next) : Reached a (past ++ event.toList) next

theorem toList_noting (sofar : Array Event) (event : Option Event) :
    (noting sofar event).toList = sofar.toList ++ event.toList := by
  cases event with
  | none => exact (List.append_nil _).symm
  | some event => exact Array.toList_push

theorem eventsFrom_of_none {a : Adjacency} {sofar : Array Event} {s : State}
    (h : s.step a = none) : eventsFrom a sofar s = sofar := by
  unfold eventsFrom
  split
  · rfl
  · next hstep => rw [h] at hstep; cases hstep

theorem eventsFrom_of_some {a : Adjacency} {sofar : Array Event} {s next : State}
    {event : Option Event} (h : s.step a = some (event, next)) :
    eventsFrom a sofar s = eventsFrom a (noting sofar event) next := by
  rw [eventsFrom]
  split
  · next hstep => rw [h] at hstep; cases hstep
  · next hstep => rw [h] at hstep; cases hstep; rfl

/-! ### State by state -/

/-- What happens in the next step, if anything does. -/
def State.event? (a : Adjacency) (s : State) : Option Event :=
  (s.step a).bind (·.1)

/-- The search gets to a state through the states before it. -/
inductive Through (a : Adjacency) : List State → State → Prop
  | init : Through a [] { starts := a.keys }
  | step {states : List State} {s next : State} {event : Option Event} (hs : Through a states s)
      (hstep : s.step a = some (event, next)) : Through a (states ++ [s]) next

/-- What happened on the way through some states. -/
def happened (a : Adjacency) (states : List State) : List Event :=
  states.filterMap (State.event? a)

theorem happened_step {a : Adjacency} {s next : State} {event : Option Event}
    (hstep : s.step a = some (event, next)) (states : List State) :
    happened a (states ++ [s]) = happened a states ++ event.toList := by
  have hevent : s.event? a = event := by rw [State.event?, hstep, Option.bind_some]
  rw [happened, List.filterMap_append, List.filterMap_cons, hevent]
  cases event <;> rfl

theorem Through.reached {a : Adjacency} {states : List State} {s : State}
    (h : Through a states s) : Reached a (happened a states) s := by
  induction h with
  | init => exact .init
  | step _ hstep ih =>
    rw [happened_step hstep]
    exact ih.move (move_of_step hstep)

/-- From every state the search goes on to where nothing is left to do. -/
theorem exists_through_eventsFrom {a : Adjacency} {states : List State} (sofar : Array Event)
    (s : State) (h : Through a states s) (hsofar : happened a states = sofar.toList) :
    ∃ states marks, Through a states ⟨marks, [], []⟩ ∧
      happened a states = (eventsFrom a sofar s).toList := by
  -- along the recursion of the search, which notes just what the states tell
  induction sofar, s using eventsFrom.induct a generalizing states with
  | case1 sofar s hstep =>
    rw [eventsFrom_of_none hstep]
    obtain ⟨hframes, hstarts⟩ := eq_nil_of_step_eq_none hstep
    obtain ⟨marks, frames, starts⟩ := s
    obtain rfl : frames = [] := hframes
    obtain rfl : starts = [] := hstarts
    exact ⟨states, marks, h, hsofar⟩
  | case2 sofar s event next hstep ih =>
    rw [eventsFrom_of_some hstep]
    refine ih (h.step hstep) ?_
    rw [happened_step hstep, hsofar, toList_noting]

theorem exists_through_events (a : Adjacency) :
    ∃ states marks, Through a states ⟨marks, [], []⟩ ∧ happened a states = events a :=
  exists_through_eventsFrom #[] _ .init rfl

/-- The events of the whole search lead to where nothing is left to do. -/
theorem reached_events (a : Adjacency) : ∃ marks, Reached a (events a) ⟨marks, [], []⟩ := by
  obtain ⟨states, marks, hthrough, hhappened⟩ := exists_through_events a
  exact ⟨marks, hhappened ▸ hthrough.reached⟩

/-! ## The order in which nodes are left -/

/-- The nodes on the way, the innermost first. -/
def State.way (s : State) : List String :=
  s.frames.map (·.id)

/-- The nodes entered so far in the order in which they are left if nothing else is entered. -/
def finishing (past : List Event) (s : State) : List String :=
  past.filterMap Event.left? ++ s.way

theorem finishing_last (past : List Event) (marks : Std.TreeMap String Mark) :
    finishing past ⟨marks, [], []⟩ = past.filterMap Event.left? :=
  List.append_nil _

/-- A step that enters a node inserts it before the way; every other step changes nothing. -/
theorem finishing_move {a : Adjacency} (past : List Event) {s next : State} {event : Option Event}
    (h : Move a s event next) :
    finishing (past ++ event.toList) next = finishing past s ∨
      ∃ id, event = some (.entered id) ∧
        finishing (past ++ event.toList) next = past.filterMap Event.left? ++ id :: s.way := by
  unfold finishing
  rw [List.filterMap_append]
  cases h with
  | pass => exact .inl (by simp [State.way])
  | start => exact .inr ⟨_, rfl, by simp [State.way, State.enter, Event.left?]⟩
  | leave => exact .inl (by simp [State.way, Event.left?])
  | enter => exact .inr ⟨_, rfl, by simp [State.way, State.enter, Event.left?]⟩
  | close => exact .inl (by simp [State.way, Event.left?])
  | skip => exact .inl (by simp [State.way])

/-- Steps only insert into the order in which nodes are left. -/
theorem finishing_sublist {a : Adjacency} (past : List Event) {s next : State}
    {event : Option Event} (h : Move a s event next) :
    finishing past s <+ finishing (past ++ event.toList) next := by
  rcases finishing_move past h with hsame | ⟨id, -, hinsert⟩
  · rw [hsame]
  · rw [hinsert]
    exact (List.Sublist.refl _).append (List.sublist_cons_self id s.way)

/-! ## What marks, frames and events say -/

/-- Marks, frames and events tell the same about every node, and the way leads along the relation. -/
structure Shape (a : Adjacency) (past : List Event) (s : State) : Prop where
  nodup : (finishing past s).Nodup
  active_iff : ∀ id, s.marks[id]? = some .active ↔ id ∈ s.way
  done_iff : ∀ id, s.marks[id]? = some .done ↔ id ∈ past.filterMap Event.left?
  linked : s.frames.IsChain fun inner outer => inner.id ∈ a.next outer.id
  rest_suffix : ∀ f ∈ s.frames, f.rest <:+ a.next f.id

namespace Shape

variable {a : Adjacency} {past : List Event} {marks : Std.TreeMap String Mark}
  {frames : List Frame} {starts : List String}

theorem init (a : Adjacency) : Shape a [] { starts := a.keys } where
  nodup := List.nodup_nil
  active_iff := by intro id; simp [State.way]
  done_iff := by intro id; simp
  linked := List.isChain_nil
  rest_suffix := by simp

/-- A node is unmarked exactly if it was not entered. -/
theorem getElem?_eq_none_iff {s : State} (h : Shape a past s) (id : String) :
    s.marks[id]? = none ↔ id ∉ finishing past s := by
  unfold finishing
  rw [List.mem_append, ← h.done_iff, ← h.active_iff]
  match s.marks[id]? with
  | none => simp
  | some .active => simp
  | some .done => simp

/-- A node is on the way once. -/
theorem not_mem_outer {frame : Frame} (h : Shape a past ⟨marks, frame :: frames, starts⟩) :
    frame.id ∉ frames.map (·.id) := by
  have hnodup := (List.nodup_append.mp h.nodup).2.1
  rw [State.way, List.map_cons] at hnodup
  exact (List.nodup_cons.mp hnodup).1

/-- The starts and the events that leave no node play no part. -/
theorem congr {past' : List Event} {starts' : List String} (h : Shape a past ⟨marks, frames, starts⟩)
    (hleft : past'.filterMap Event.left? = past.filterMap Event.left?) :
    Shape a past' ⟨marks, frames, starts'⟩ where
  nodup := by
    unfold finishing
    rw [hleft]
    exact h.nodup
  active_iff := h.active_iff
  done_iff := by
    rw [hleft]
    exact h.done_iff
  linked := h.linked
  rest_suffix := h.rest_suffix

/-- Taking the next node to be followed off the innermost frame. -/
theorem follow {id next : String} {rest : List String}
    (h : Shape a past ⟨marks, ⟨id, next :: rest⟩ :: frames, starts⟩) :
    Shape a past ⟨marks, ⟨id, rest⟩ :: frames, starts⟩ where
  nodup := h.nodup
  active_iff := h.active_iff
  done_iff := h.done_iff
  linked := by
    have hlinked := h.linked
    rw [List.isChain_cons] at hlinked ⊢
    exact hlinked
  rest_suffix := by
    intro f hf
    rcases List.mem_cons.mp hf with rfl | hf
    · exact (List.suffix_cons next rest).trans (h.rest_suffix _ List.mem_cons_self)
    · exact h.rest_suffix f (List.mem_cons_of_mem _ hf)

/-- Entering a node that is next to the innermost one, if there is one. -/
theorem enter {s : State} {id : String} (h : Shape a past s) (hmark : s.marks[id]? = none)
    (hlink : ∀ f ∈ s.frames.head?, id ∈ a.next f.id) :
    Shape a (past ++ [.entered id]) (s.enter a id) := by
  have hnew : id ∉ finishing past s := (h.getElem?_eq_none_iff id).mp hmark
  have hleft : (past ++ [Event.entered id]).filterMap Event.left? = past.filterMap Event.left? := by
    simp [Event.left?]
  unfold finishing at hnew
  rw [List.mem_append, not_or] at hnew
  refine { nodup := ?_, active_iff := ?_, done_iff := ?_, linked := ?_, rest_suffix := ?_ }
  · have hnodup := h.nodup
    unfold finishing at hnodup ⊢
    rw [hleft]
    -- the new node stands between those that were left and the way
    show (past.filterMap Event.left? ++ id :: s.way).Nodup
    rw [List.nodup_middle, List.nodup_cons, List.mem_append, not_or]
    exact ⟨hnew, hnodup⟩
  · intro other
    show (s.marks.insert id .active)[other]? = some .active ↔ other ∈ id :: s.way
    rw [Std.TreeMap.getElem?_insert, List.mem_cons, ← h.active_iff]
    by_cases heq : id = other
    · simp [heq]
    · simp [heq, Ne.symm heq]
  · intro other
    show (s.marks.insert id .active)[other]? = some .done ↔ _
    rw [hleft, Std.TreeMap.getElem?_insert, ← h.done_iff]
    by_cases heq : id = other
    · subst heq
      simp [hmark]
    · simp [heq]
  · exact List.isChain_cons.mpr ⟨hlink, h.linked⟩
  · intro f hf
    rcases List.mem_cons.mp hf with rfl | hf
    · exact List.suffix_rfl
    · exact h.rest_suffix f hf

/-- Leaving the innermost node. -/
theorem leave {id : String} (h : Shape a past ⟨marks, ⟨id, []⟩ :: frames, starts⟩) :
    Shape a (past ++ [.left id]) ⟨marks.insert id .done, frames, starts⟩ := by
  have hleft : (past ++ [Event.left id]).filterMap Event.left? =
      past.filterMap Event.left? ++ [id] := by
    simp [Event.left?]
  have hway := h.not_mem_outer
  refine { nodup := ?_, active_iff := ?_, done_iff := ?_, linked := ?_, rest_suffix := ?_ }
  · -- the node moves from the way to those that were left, and stays where it is in the order
    unfold finishing
    rw [hleft, List.append_assoc]
    exact h.nodup
  · intro other
    have hactive := h.active_iff other
    rw [State.way, List.map_cons, List.mem_cons] at hactive
    show (marks.insert id .done)[other]? = some .active ↔ other ∈ frames.map (·.id)
    rw [Std.TreeMap.getElem?_insert]
    by_cases heq : id = other
    · subst heq
      simp [hway]
    · rw [if_neg (by simpa using heq), hactive]
      exact or_iff_right (Ne.symm heq)
  · intro other
    show (marks.insert id .done)[other]? = some .done ↔ _
    rw [hleft, Std.TreeMap.getElem?_insert, List.mem_append, List.mem_singleton, ← h.done_iff]
    by_cases heq : id = other
    · simp [heq]
    · simp [heq, Ne.symm heq]
  · exact (List.isChain_cons.mp h.linked).2
  · intro f hf
    exact h.rest_suffix f (List.mem_cons_of_mem _ hf)

/-- Every step keeps the shape. -/
theorem move {s next : State} {event : Option Event} (h : Shape a past s)
    (hmove : Move a s event next) : Shape a (past ++ event.toList) next := by
  cases hmove with
  | pass => exact h.congr (by simp)
  | start hmark => exact (h.congr rfl).enter hmark fun f hf => nomatch hf
  | leave => exact h.leave
  | enter hmark =>
    refine h.follow.enter hmark ?_
    rintro f ⟨⟩
    exact (h.rest_suffix _ List.mem_cons_self).subset List.mem_cons_self
  | close => exact h.follow.congr (by simp [Event.left?])
  | skip => exact h.follow.congr (by simp)

end Shape

theorem Reached.shape {a : Adjacency} {past : List Event} {s : State} (h : Reached a past s) :
    Shape a past s := by
  induction h with
  | init => exact Shape.init a
  | move _ hmove ih => exact ih.move hmove

/-! ## Who is entered -/

/-- What has a neighbour is a key. -/
theorem mem_keys_of_mem_next {a : Adjacency} {u v : String} (h : v ∈ a.next u) : u ∈ a.keys := by
  by_contra hu
  rw [a.next_of_not_mem u hu] at h
  exact nomatch h

/-- Every key is entered sooner or later. -/
theorem Reached.covers {a : Adjacency} {past : List Event} {s : State} (h : Reached a past s) :
    ∀ id ∈ a.keys, id ∈ s.starts ∨ id ∈ finishing past s := by
  induction h with
  | init => exact fun id hid => .inl hid
  | @move past s next event hs hmove ih =>
    intro id hid
    have hgrows := (finishing_sublist past hmove).subset
    rcases ih id hid with hstart | hentered
    swap
    · exact .inr (hgrows hentered)
    cases hmove with
    | @pass marks start starts hmark =>
      rcases List.mem_cons.mp hstart with rfl | hstart
      · -- the start that is passed over was marked before
        refine .inr (hgrows (Decidable.not_not.mp fun hnew => ?_))
        rw [Std.TreeMap.contains_eq_isSome_getElem?,
          (hs.shape.getElem?_eq_none_iff id).mpr hnew] at hmark
        cases hmark
      · exact .inl hstart
    | start =>
      rcases List.mem_cons.mp hstart with rfl | hstart
      · exact .inr (List.mem_append_right _ List.mem_cons_self)
      · exact .inl hstart
    | leave => exact .inl hstart
    | enter => exact .inl hstart
    | close => exact .inl hstart
    | skip => exact .inl hstart

/-- What is entered is a start or next to something. -/
theorem Move.entered {a : Adjacency} {past : List Event} {s next : State} {id : String}
    (h : Move a s (some (.entered id)) next) (hs : Shape a past s) :
    id ∈ s.starts ∨ ∃ other, id ∈ a.next other := by
  cases h with
  | start => exact .inl List.mem_cons_self
  | enter =>
    exact .inr ⟨_, (hs.rest_suffix _ List.mem_cons_self).subset List.mem_cons_self⟩

theorem Move.starts_subset {a : Adjacency} {s next : State} {event : Option Event}
    (h : Move a s event next) : next.starts ⊆ s.starts := by
  cases h with
  | pass => exact List.subset_cons_self _ _
  | start => exact List.subset_cons_self _ _
  | leave => exact List.Subset.refl _
  | enter => exact List.Subset.refl _
  | close => exact List.Subset.refl _
  | skip => exact List.Subset.refl _

/-- Only keys are entered, if only keys are next to anything. -/
theorem Reached.mem_keys {a : Adjacency} (hclosed : ∀ u, ∀ v ∈ a.next u, v ∈ a.keys)
    {past : List Event} {s : State} (h : Reached a past s) :
    (∀ id ∈ s.starts, id ∈ a.keys) ∧ ∀ id ∈ finishing past s, id ∈ a.keys := by
  induction h with
  | init => exact ⟨fun id hid => hid, fun id hid => nomatch hid⟩
  | @move past s next event hs hmove ih =>
    obtain ⟨hstarts, hfinishing⟩ := ih
    refine ⟨fun id hid => hstarts id (hmove.starts_subset hid), ?_⟩
    rcases finishing_move past hmove with hsame | ⟨new, rfl, hinsert⟩
    · rw [hsame]
      exact hfinishing
    · have hnew : new ∈ a.keys := by
        rcases hmove.entered hs.shape with hstart | ⟨other, hnext⟩
        · exact hstarts new hstart
        · exact hclosed other new hnext
      intro id hid
      rw [hinsert, List.mem_append, List.mem_cons] at hid
      rcases hid with hleft | rfl | hway
      · exact hfinishing id (List.mem_append_left _ hleft)
      · exact hnew
      · exact hfinishing id (List.mem_append_right _ hway)

/-! ## The completion order -/

theorem nodup_completionOrder (a : Adjacency) : (completionOrder a).Nodup := by
  obtain ⟨marks, hreached⟩ := reached_events a
  have hnodup := hreached.shape.nodup
  rw [finishing_last] at hnodup
  exact hnodup

theorem mem_completionOrder_of_mem_keys {a : Adjacency} {id : String} (h : id ∈ a.keys) :
    id ∈ completionOrder a := by
  obtain ⟨marks, hreached⟩ := reached_events a
  rcases hreached.covers id h with hstart | hleft
  · exact nomatch hstart
  · rw [finishing_last] at hleft
    exact hleft

/-- The search leaves every key once, and nothing else if only keys are next to anything. -/
theorem mem_completionOrder_iff {a : Adjacency} (hclosed : ∀ u, ∀ v ∈ a.next u, v ∈ a.keys)
    (id : String) : id ∈ completionOrder a ↔ id ∈ a.keys := by
  refine ⟨fun hid => ?_, mem_completionOrder_of_mem_keys⟩
  obtain ⟨marks, hreached⟩ := reached_events a
  refine (hreached.mem_keys hclosed).2 id ?_
  rw [finishing_last]
  exact hid

end DepGraph.DepthFirst

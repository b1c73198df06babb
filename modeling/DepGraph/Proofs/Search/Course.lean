import Mathlib.Data.List.Perm.Subperm
import DepGraph.Proofs.Search.Closing

/-!
# The course of a search

A search goes from state to state until no step is left. Nothing is asked of the relation it goes
over: a list of neighbours may name what is no key, and may name it twice. Still no node comes onto
the way twice, and no entry of a list is gone over twice, because what is behind the search can be
read off its state.

- `Reached.entered_perm`: the nodes that came onto the way are those that were left and those on it.
- `Behind`: the entries behind a state; a step over an entry adds just that one (`behind_move`).
- `Through.length_add`: a step takes a start, leaves a node or goes over an entry.
- `exists_exhausts`: the search ends, with every entry gone over once.
- `length_cycles_le`: so it closes at most as many cycles as there are entries.
-/

namespace DepGraph.DepthFirst

open scoped List

/-- The node that was entered. -/
def Event.entered? : Event → Option String
  | .entered id => some id
  | _ => none

/-! ## What a step does -/

namespace State

/-- The node that comes onto the way in the next step. -/
def entered? (a : Adjacency) (s : State) : Option String :=
  (s.event? a).bind Event.entered?

/-- The entry that the next step goes over, as the node in whose list it stands and its place in
the list. -/
def passed? (a : Adjacency) (s : State) : Option (String × Nat) :=
  match s.frames with
  | ⟨id, _ :: rest⟩ :: _ => some (id, (a.next id).length - (rest.length + 1))
  | _ => none

end State

variable {a : Adjacency} {states : List State} {past : List Event} {s next : State}
  {event : Option Event} {id : String} {place : Nat}

/-! ## No node is entered twice -/

/-- Entering a node puts it on the way, leaving one takes it off, and nothing else changes the
way. -/
theorem Move.way_eq (h : Move a s event next) :
    event.toList.filterMap Event.left? ++ next.way =
      event.toList.filterMap Event.entered? ++ s.way := by
  cases h <;> rfl

/-- What a step enters is what it adds to the nodes that were left or are on the way. -/
theorem finishing_move_perm (past : List Event) (h : Move a s event next) :
    finishing (past ++ event.toList) next ~
      event.toList.filterMap Event.entered? ++ finishing past s := by
  rw [finishing, finishing, List.filterMap_append, List.append_assoc, h.way_eq]
  exact List.perm_append_comm_assoc _ _ _

theorem Reached.entered_perm (h : Reached a past s) :
    past.filterMap Event.entered? ~ finishing past s := by
  induction h with
  | init => exact .refl _
  | @move past s next event hs hmove ih =>
    rw [List.filterMap_append]
    calc past.filterMap Event.entered? ++ event.toList.filterMap Event.entered?
      _ ~ finishing past s ++ event.toList.filterMap Event.entered? := ih.append_right _
      _ ~ event.toList.filterMap Event.entered? ++ finishing past s := List.perm_append_comm
      _ ~ finishing (past ++ event.toList) next := (finishing_move_perm past hmove).symm

/-! ## No entry is gone over twice -/

/-- The entry is behind the search: its node was left, or is on the way and the entry is no longer
to be followed. -/
def Behind (a : Adjacency) (past : List Event) (s : State) (id : String) (place : Nat) : Prop :=
  (id ∈ past.filterMap Event.left? ∧ place < (a.next id).length) ∨
    ∃ f ∈ s.frames, f.id = id ∧ place + f.rest.length < (a.next id).length

section Frames

variable {marks : Std.TreeMap String Mark} {frame : Frame} {frames : List Frame}
  {starts : List String} {source target : String} {rest : List String}

theorem behind_cons_iff : Behind a past ⟨marks, frame :: frames, starts⟩ id place ↔
    (frame.id = id ∧ place + frame.rest.length < (a.next id).length) ∨
      Behind a past ⟨marks, frames, starts⟩ id place := by
  simp only [Behind, List.mem_cons, exists_eq_or_imp]
  exact or_left_comm

/-- Entering a node puts nothing behind the search. -/
theorem behind_enter {new : String} :
    Behind a (past ++ [.entered new]) (State.enter ⟨marks, frames, starts⟩ a new) id place ↔
      Behind a past ⟨marks, frames, starts⟩ id place := by
  have hleft : (past ++ [Event.entered new]).filterMap Event.left? = past.filterMap Event.left? :=
    by simp [Event.left?]
  unfold State.enter
  rw [behind_cons_iff, Behind, hleft]
  refine or_iff_right ?_
  -- all of the new list is still to be followed
  rintro ⟨rfl, hplace⟩
  exact absurd hplace (Nat.not_lt_of_le (Nat.le_add_left _ _))

/-- Leaving a node of which nothing is still to be followed puts nothing behind the search. -/
theorem behind_leave : Behind a (past ++ [.left source]) ⟨marks.insert source .done, frames, starts⟩
      id place ↔ Behind a past ⟨marks, ⟨source, []⟩ :: frames, starts⟩ id place := by
  have hleft : id ∈ (past ++ [Event.left source]).filterMap Event.left? ↔
      source = id ∨ id ∈ past.filterMap Event.left? := by
    rw [List.filterMap_append, List.mem_append, or_comm]
    exact or_congr_left (List.mem_singleton.trans eq_comm)
  rw [behind_cons_iff, Behind, hleft, or_and_right, or_assoc]
  rfl

/-- Following an entry puts it behind the search. -/
theorem behind_follow (h : Shape a past ⟨marks, ⟨source, target :: rest⟩ :: frames, starts⟩) :
    Behind a past ⟨marks, ⟨source, rest⟩ :: frames, starts⟩ id place ↔
      Behind a past ⟨marks, ⟨source, target :: rest⟩ :: frames, starts⟩ id place ∨
        State.passed? a ⟨marks, ⟨source, target :: rest⟩ :: frames, starts⟩ = some (id, place) := by
  have hlength : (target :: rest).length ≤ (a.next source).length :=
    (h.rest_suffix _ List.mem_cons_self).length_le
  -- the entry stands right before what is still to be followed after it
  have hplace : place + rest.length < (a.next source).length ↔
      place + (target :: rest).length < (a.next source).length ∨
        (a.next source).length - (rest.length + 1) = place := by
    rw [List.length_cons] at hlength ⊢
    omega
  rw [behind_cons_iff, behind_cons_iff, State.passed?, Option.some.injEq, Prod.mk.injEq,
    or_right_comm, ← and_or_left]
  refine or_congr_left (and_congr_right ?_)
  rintro rfl
  exact hplace

/-- The next entry is one of the list, and it is not behind the search. -/
theorem Shape.passed (h : Shape a past s) (hpassed : s.passed? a = some (id, place)) :
    place < (a.next id).length ∧ ¬ Behind a past s id place := by
  obtain ⟨marks, frames, starts⟩ := s
  unfold State.passed? at hpassed
  split at hpassed
  · next source target rest frames heq =>
    obtain rfl : _ = ⟨source, target :: rest⟩ :: frames := heq
    obtain ⟨rfl, rfl⟩ := Prod.mk.inj (Option.some.inj hpassed)
    have hlength : (target :: rest).length ≤ (a.next source).length :=
      (h.rest_suffix _ List.mem_cons_self).length_le
    rw [List.length_cons] at hlength
    refine ⟨by omega, ?_⟩
    rintro (⟨hleft, -⟩ | ⟨f, hf, hid, hplace⟩)
    · -- the node is on the way, so it was not left
      exact List.disjoint_of_nodup_append h.nodup hleft List.mem_cons_self
    · rcases List.mem_cons.mp hf with rfl | hf
      · rw [List.length_cons] at hplace
        omega
      · exact h.not_mem_outer (List.mem_map.mpr ⟨f, hf, hid⟩)
  · cases hpassed

end Frames

/-- A step puts the entry that it goes over behind the search, and no other. -/
theorem behind_move (h : Shape a past s) (hmove : Move a s event next) :
    Behind a (past ++ event.toList) next id place ↔
      Behind a past s id place ∨ s.passed? a = some (id, place) := by
  cases hmove with
  | pass => simp [Behind, State.passed?]
  | start =>
    exact behind_enter.trans (by simp [Behind, State.passed?])
  | leave =>
    exact behind_leave.trans (by simp [State.passed?])
  | enter => exact behind_enter.trans (behind_follow h)
  | close =>
    rw [← behind_follow h]
    simp [Behind, Event.left?]
  | skip =>
    rw [← behind_follow h]
    simp

/-- The entries that were gone over are those behind the search, each of them once. -/
theorem Through.passed (h : Through a states s) :
    (states.filterMap (State.passed? a)).Nodup ∧ ∀ id place,
      (id, place) ∈ states.filterMap (State.passed? a) ↔
        Behind a (happened a states) s id place := by
  induction h with
  | init => simp [Behind, happened]
  | @step states s next event hs hstep ih =>
    obtain ⟨hnodup, hmem⟩ := ih
    have hshape := hs.reached.shape
    rw [List.filterMap_append, happened_step hstep]
    constructor
    · cases hpassed : s.passed? a with
      | none => simpa [hpassed] using hnodup
      | some entry =>
        have hnew : entry ∉ states.filterMap (State.passed? a) := fun hold =>
          (hshape.passed hpassed).2 ((hmem entry.1 entry.2).mp hold)
        have hlast : [s].filterMap (State.passed? a) = [entry] := by simp [hpassed]
        rw [hlast, List.nodup_append_comm]
        exact List.nodup_cons.mpr ⟨hnew, hnodup⟩
    · intro id place
      rw [behind_move hshape (move_of_step hstep), List.mem_append, hmem]
      simp

/-! ## How many steps there are -/

/-- A step takes a start, leaves a node or goes over an entry. -/
theorem Move.length_starts (h : Move a s event next) :
    next.starts.length + 1 = s.starts.length + (event.toList.filterMap Event.left?).length +
      (s.passed? a).toList.length := by
  cases h <;> rfl

theorem Through.length_add (h : Through a states s) :
    states.length + s.starts.length = a.keys.length +
      ((happened a states).filterMap Event.left?).length +
      (states.filterMap (State.passed? a)).length := by
  induction h with
  | init => exact Nat.add_comm _ _
  | @step states s next event hs hstep ih =>
    have hlength := (move_of_step hstep).length_starts
    have hpassed : [s].filterMap (State.passed? a) = (s.passed? a).toList := by
      cases h : s.passed? a <;> simp [h]
    rw [happened_step hstep, List.filterMap_append, List.filterMap_append, List.length_append,
      List.length_append, List.length_append, List.length_singleton, hpassed]
    omega

/-! ## The whole course -/

/-- A search through the given states comes to its end. It enters every key and no node twice, and
it goes over every entry of a list of neighbours once. -/
structure Exhausts (a : Adjacency) (states : List State) : Prop where
  ends : ∃ last, Through a states last ∧ last.step a = none
  nodup_entered : (states.filterMap (State.entered? a)).Nodup
  mem_entered : ∀ id ∈ a.keys, id ∈ states.filterMap (State.entered? a)
  nodup_passed : (states.filterMap (State.passed? a)).Nodup
  mem_passed_iff : ∀ id place,
    (id, place) ∈ states.filterMap (State.passed? a) ↔ place < (a.next id).length
  /-- Every step takes a key, leaves a node that was entered or goes over an entry. -/
  length_eq : states.length = a.keys.length + (states.filterMap (State.entered? a)).length +
    (states.filterMap (State.passed? a)).length

section Last

variable {marks : Std.TreeMap String Mark} (hhappened : happened a states = events a)

include hhappened

/-- At the end nothing is on the way, so all that was entered was left. -/
theorem Through.entered_perm (h : Through a states ⟨marks, [], []⟩) :
    states.filterMap (State.entered? a) ~ completionOrder a := by
  have hperm := h.reached.entered_perm
  rw [finishing_last] at hperm
  calc states.filterMap (State.entered? a)
    _ = (happened a states).filterMap Event.entered? := List.filterMap_filterMap.symm
    _ ~ (happened a states).filterMap Event.left? := hperm
    _ = completionOrder a := by rw [hhappened, completionOrder]

/-- At the end everything is behind the search. -/
theorem behind_last :
    Behind a (happened a states) ⟨marks, [], []⟩ id place ↔ place < (a.next id).length := by
  rw [Behind, hhappened]
  refine ⟨fun hbehind => ?_, fun hplace => .inl ⟨?_, hplace⟩⟩
  · rcases hbehind with ⟨-, hplace⟩ | ⟨f, hf, -⟩
    · exact hplace
    · exact absurd hf List.not_mem_nil
  · exact mem_completionOrder_of_mem_keys (mem_keys_of_mem_next (List.getElem_mem hplace))

end Last

/-- **Every search ends**, whatever the lists of neighbours name. -/
theorem exists_exhausts (a : Adjacency) :
    ∃ states, Exhausts a states ∧ happened a states = events a := by
  obtain ⟨states, marks, hthrough, hhappened⟩ := exists_through_events a
  have hentered := hthrough.entered_perm hhappened
  obtain ⟨hnodup, hmem⟩ := hthrough.passed
  have hlength := hthrough.length_add
  rw [List.length_nil, Nat.add_zero, hhappened] at hlength
  exact ⟨states,
    { ends := ⟨_, hthrough, rfl⟩
      nodup_entered := hentered.nodup_iff.mpr (nodup_completionOrder a)
      mem_entered := fun id hid => hentered.mem_iff.mpr (mem_completionOrder_of_mem_keys hid)
      nodup_passed := hnodup
      mem_passed_iff := fun id place => (hmem id place).trans (behind_last hhappened)
      length_eq := hentered.length_eq ▸ hlength }, hhappened⟩

/-- The entries of the lists of neighbours. -/
def entries (a : Adjacency) : List (String × Nat) :=
  a.keys.flatMap fun id => (List.range (a.next id).length).map (id, ·)

theorem length_entries (a : Adjacency) : (entries a).length = (a.keys.flatMap a.next).length := by
  simp [entries, List.length_flatMap]

theorem Exhausts.passed_subset (h : Exhausts a states) :
    states.filterMap (State.passed? a) ⊆ entries a := by
  rintro ⟨id, place⟩ hentry
  have hplace := (h.mem_passed_iff id place).mp hentry
  exact List.mem_flatMap.mpr ⟨id, mem_keys_of_mem_next (List.getElem_mem hplace),
    List.mem_map.mpr ⟨place, List.mem_range.mpr hplace, rfl⟩⟩

/-- Where a cycle is closed, an entry is gone over. -/
theorem Move.passed_of_closed (h : Move a s event next)
    (hclosed : (event.bind Event.closed?).isSome) : (s.passed? a).isSome := by
  cases h with
  | close => rfl
  | pass => cases hclosed
  | start => cases hclosed
  | leave => cases hclosed
  | enter => cases hclosed
  | skip => cases hclosed

theorem State.passed_of_closed (hclosed : ((s.event? a).bind Event.closed?).isSome) :
    (s.passed? a).isSome := by
  cases hstep : s.step a with
  | none => simp [State.event?, hstep] at hclosed
  | some result =>
    rw [State.event?, hstep, Option.bind_some] at hclosed
    exact (move_of_step hstep).passed_of_closed hclosed

/-- **No more cycles are closed than there are entries.** -/
theorem length_cycles_le (a : Adjacency) :
    (cycles a).length ≤ (a.keys.flatMap a.next).length := by
  obtain ⟨states, hexhausts, hhappened⟩ := exists_exhausts a
  calc (cycles a).length
    _ = (states.filterMap fun s => (s.event? a).bind Event.closed?).length := by
      rw [cycles, ← hhappened, happened, List.filterMap_filterMap]
    _ ≤ (states.filterMap (State.passed? a)).length := by
      rw [List.length_filterMap_eq_countP, List.length_filterMap_eq_countP]
      exact List.countP_mono_left fun s _ => State.passed_of_closed
    _ ≤ (entries a).length :=
      (hexhausts.nodup_passed.subperm hexhausts.passed_subset).length_le
    _ = (a.keys.flatMap a.next).length := length_entries a

end DepGraph.DepthFirst

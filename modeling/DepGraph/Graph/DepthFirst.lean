import Std.Data.TreeMap

/-!
# Depth-first search

The search goes over a finite relation between identifiers. It keeps its way back in a list of
frames, so that no depth is too much for it, and it answers with what happened, in order: a node was
entered, a node that is still active was met again, or a node was left.

* `work_step`: every step leaves less to do, whatever the relation looks like, so the search ends.
-/

namespace DepGraph.DepthFirst

/-- A relation on identifiers. Only keys are related to anything; what they are related to need not
be a key, and may be listed more than once. -/
structure Adjacency where
  keys : List String
  next : String → List String
  next_of_not_mem : ∀ id, id ∉ keys → next id = []

/-- How far the search is with a node. -/
inductive Mark where
  /-- Entered and not yet left. -/
  | active
  /-- Left. -/
  | done
  deriving Repr, DecidableEq

/-- A node on the way, with what is still to be followed from it. -/
structure Frame where
  id : String
  rest : List String
  deriving Repr

/-- Where the search stands: the marks, the way back with the innermost frame first, and the nodes
from which it is still to start. -/
structure State where
  marks : Std.TreeMap String Mark := ∅
  frames : List Frame := []
  starts : List String

/-- Something that happened. -/
inductive Event where
  | entered (id : String)
  /-- An active node was met again. The members lead from that node to the one that met it. -/
  | closed (members : List String)
  | left (id : String)
  deriving Repr, DecidableEq

namespace Event

/-- The members of the cycle that was closed. -/
def closed? : Event → Option (List String)
  | .closed members => some members
  | _ => none

/-- The node that was left. -/
def left? : Event → Option String
  | .left id => some id
  | _ => none

end Event

/-! ## One step -/

namespace State

/-- The nodes on the way, from the start to where the search stands. -/
def path (s : State) : List String :=
  (s.frames.map (·.id)).reverse

/-- The nodes on the way from an active node on. -/
def pathFrom (s : State) (id : String) : List String :=
  id :: ((s.frames.map (·.id)).takeWhile (· != id)).reverse

/-- Enters a node. -/
def enter (s : State) (a : Adjacency) (id : String) : State :=
  { s with marks := s.marks.insert id .active, frames := ⟨id, a.next id⟩ :: s.frames }

/-- One step of the search, and what happened in it; nothing happens where a node is met that has
been left. -/
def step (a : Adjacency) (s : State) : Option (Option Event × State) :=
  match s.frames with
  | [] =>
    match s.starts with
    | [] => none
    | id :: starts =>
      let s := { s with starts }
      if s.marks.contains id then some (none, s) else some (some (.entered id), s.enter a id)
  | ⟨id, []⟩ :: frames =>
    some (some (.left id), { s with marks := s.marks.insert id .done, frames })
  | ⟨id, next :: rest⟩ :: frames =>
    let s := { s with frames := ⟨id, rest⟩ :: frames }
    match (s.marks[next]? : Option Mark) with
    | none => some (some (.entered next), s.enter a next)
    | some .active => some (some (.closed (s.pathFrom next)), s)
    | some .done => some (none, s)

/-! ## The search ends -/

/-- What is still to be followed from the keys of a list that have not been entered. -/
def pending (a : Adjacency) (marks : Std.TreeMap String Mark) : List String → Nat
  | [] => 0
  | id :: ids => (if marks.contains id then 0 else 2 * (a.next id).length) + pending a marks ids

/-- What is still to be followed on the way. -/
def onTheWay (frames : List Frame) : Nat :=
  frames.foldr (fun f rest => 2 * f.rest.length + 1 + rest) 0

/-- A measure of what is still to do. -/
def work (a : Adjacency) (s : State) : Nat :=
  pending a s.marks a.keys + onTheWay s.frames + 2 * s.starts.length

theorem pending_insert_le (a : Adjacency) (marks : Std.TreeMap String Mark) (id : String)
    (mark : Mark) (ids : List String) :
    pending a (marks.insert id mark) ids ≤ pending a marks ids := by
  induction ids with
  | nil => exact Nat.le_refl _
  | cons other ids ih =>
    simp only [pending, Std.TreeMap.contains_insert]
    by_cases h : marks.contains other
    · simp [h, ih]
    · by_cases h' : compare id other == .eq <;> simp [h, h'] <;> omega

theorem pending_insert_of_mem (a : Adjacency) {marks : Std.TreeMap String Mark} {id : String}
    (mark : Mark) (hid : marks.contains id = false) {ids : List String} (hmem : id ∈ ids) :
    pending a (marks.insert id mark) ids + 2 * (a.next id).length ≤ pending a marks ids := by
  induction ids with
  | nil => simp at hmem
  | cons other ids ih =>
    have hle := pending_insert_le a marks id mark ids
    simp only [pending, Std.TreeMap.contains_insert]
    rcases List.mem_cons.mp hmem with rfl | hmem
    · simp [hid]
      omega
    · have := ih hmem
      by_cases h : marks.contains other
      · simp [h]
        omega
      · by_cases h' : compare id other == .eq <;> simp [h, h'] <;> omega

/-- Entering a node costs no more than one, because what was to be followed from it was counted
before. -/
theorem work_enter {a : Adjacency} {s : State} {id : String} (h : s.marks.contains id = false) :
    (s.enter a id).work a ≤ s.work a + 1 := by
  have hsum : onTheWay (⟨id, a.next id⟩ :: s.frames) =
      2 * (a.next id).length + 1 + onTheWay s.frames := by simp [onTheWay]
  simp only [work, enter, hsum]
  by_cases hmem : id ∈ a.keys
  · have := pending_insert_of_mem a .active h hmem
    omega
  · have := pending_insert_le a s.marks id .active a.keys
    simp only [a.next_of_not_mem id hmem, List.length_nil]
    omega

theorem work_step {a : Adjacency} {s next : State} {event : Option Event}
    (h : s.step a = some (event, next)) : next.work a < s.work a := by
  obtain ⟨marks, frames, starts⟩ := s
  cases frames with
  | nil =>
    cases starts with
    | nil => simp [step] at h
    | cons id starts =>
      simp only [step] at h
      split at h
      · cases h
        simp [work]
      · next hid =>
        cases h
        have := work_enter (a := a) (s := ⟨marks, [], starts⟩)
          (show marks.contains id = false by simpa only [Bool.not_eq_true] using hid)
        simp only [work, List.length_cons] at this ⊢
        omega
  | cons frame frames =>
    obtain ⟨id, rest⟩ := frame
    cases rest with
    | nil =>
      simp only [step, Option.some.injEq, Prod.mk.injEq] at h
      obtain ⟨_, rfl⟩ := h
      have := pending_insert_le a marks id .done a.keys
      simp only [work, onTheWay, List.foldr_cons, List.length_nil]
      omega
    | cons other rest =>
      have hless : work a ⟨marks, ⟨id, rest⟩ :: frames, starts⟩ + 2 =
          work a ⟨marks, ⟨id, other :: rest⟩ :: frames, starts⟩ := by
        simp only [work, onTheWay, List.foldr_cons, List.length_cons]
        omega
      simp only [step] at h
      split at h
      · next hmark =>
        simp only [Option.some.injEq, Prod.mk.injEq] at h
        obtain ⟨_, rfl⟩ := h
        have := work_enter (a := a) (s := ⟨marks, ⟨id, rest⟩ :: frames, starts⟩)
          (show marks.contains other = false by
            rw [Std.TreeMap.contains_eq_isSome_getElem?, hmark]; rfl)
        omega
      · simp only [Option.some.injEq, Prod.mk.injEq] at h
        obtain ⟨_, rfl⟩ := h
        omega
      · simp only [Option.some.injEq, Prod.mk.injEq] at h
        obtain ⟨_, rfl⟩ := h
        omega

end State

/-! ## The whole search -/

/-- What has happened so far with what happened in one more step. -/
def noting (sofar : Array Event) : Option Event → Array Event
  | some event => sofar.push event
  | none => sofar

/-- What happens from a state on, after what has happened so far. -/
def eventsFrom (a : Adjacency) (sofar : Array Event) (s : State) : Array Event :=
  match _h : s.step a with
  | none => sofar
  | some (event, next) => eventsFrom a (noting sofar event) next
termination_by s.work a
decreasing_by exact State.work_step _h

/-- What happens in the search from all keys, in order. -/
def events (a : Adjacency) : List Event :=
  (eventsFrom a #[] { starts := a.keys }).toList

/-- The members of the cycles that the search closes, in order. -/
def cycles (a : Adjacency) : List (List String) :=
  (events a).filterMap Event.closed?

/-- The nodes in the order in which the search leaves them. -/
def completionOrder (a : Adjacency) : List String :=
  (events a).filterMap Event.left?

end DepGraph.DepthFirst

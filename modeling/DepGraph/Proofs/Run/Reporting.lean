import DepGraph.Proofs.Run.Returning

/-!
# What a run reports

Which steps a run takes is its own affair, but the events among them are seen from outside. If
nothing interrupts a run, what it returns can be told together with what it reports, whatever the
session, and two runs can be compared that take different steps.

- `Session.events`: the events that were reported, in order.
- `Yields`: in every session a run returns such a value and reports these events.
- `Yields.of_returns`: this is what the run returns.
- `yields_bind`: one run after another.
-/

namespace DepGraph

/-- The event that a step reports. -/
def Step.event? : Step → Option Event
  | .reported event => some event
  | _ => none

/-- The events that were reported, in order. -/
def Session.events {σ : Type} (session : Session σ) : List Event :=
  session.steps.toList.filterMap Step.event?

theorem Session.events_take {σ : Type} (s : Surroundings σ) (step : Step) (session : Session σ) :
    (session.take s step).events = session.events ++ step.event?.toList := by
  unfold events take
  rw [Array.toList_push, List.filterMap_append, List.filterMap_cons, List.filterMap_nil]
  cases step.event? <;> rfl

namespace Run

variable {σ α β : Type} {s : Surroundings σ} {session between : Session σ}

/-- Whatever the session, the run returns a value of this kind and reports these events. -/
def Yields (x : Run σ α) (P : α → Prop) (events : List Event) : Prop :=
  ∀ session, ∃ a session', Returns x session a session' ∧ P a ∧
    session'.events = session.events ++ events

theorem yields_pure {P : α → Prop} {a : α} (ha : P a) : Yields (pure a : Run σ α) P [] :=
  fun session => ⟨a, session, returns_pure_iff.mpr ⟨rfl, rfl⟩, ha, (List.append_nil _).symm⟩

/-- The run returns only once, so whatever it returns is of this kind. -/
theorem Yields.of_returns {x : Run σ α} {P : α → Prop} {events : List Event} {a : α}
    (hx : Yields x P events) (h : Returns x session a between) :
    P a ∧ between.events = session.events ++ events := by
  obtain ⟨a', between', h', hend⟩ := hx session
  obtain ⟨rfl, rfl⟩ := h.unique h'
  exact hend

theorem yields_mono {x : Run σ α} {P Q : α → Prop} {events : List Event} (hx : Yields x P events)
    (hPQ : ∀ a, P a → Q a) : Yields x Q events := by
  intro session
  obtain ⟨a, session', hreturns, ha, hevents⟩ := hx session
  exact ⟨a, session', hreturns, hPQ a ha, hevents⟩

/-- One run after another reports the events of both. -/
theorem yields_bind {x : Run σ α} {f : α → Run σ β} {P : α → Prop} {Q : β → Prop}
    {events events' : List Event} (hx : Yields x P events)
    (hf : ∀ a, P a → Yields (f a) Q events') : Yields (x >>= f) Q (events ++ events') := by
  intro session
  obtain ⟨a, between, hreturns, ha, hevents⟩ := hx session
  obtain ⟨b, session', hreturns', hb, hevents'⟩ := hf a ha between
  refine ⟨b, session', returns_bind_iff.mpr ⟨a, between, hreturns, hreturns'⟩, hb, ?_⟩
  rw [hevents', hevents, List.append_assoc]

theorem yields_check (hs : ∀ world, s.Continues world) : Yields (check s) (fun _ => True) [] :=
  fun session => ⟨(), session, returns_check_iff.mpr ⟨hs session.world, rfl⟩, trivial,
    (List.append_nil _).symm⟩

theorem yields_record (s : Surroundings σ) (step : Step) :
    Yields (liftM (record s step) : Run σ Unit) (fun _ => True) step.event?.toList :=
  fun session => ⟨(), session.take s step, returns_record_iff.mpr rfl, trivial,
    session.events_take s step⟩

theorem yields_files {files : FileSystem} (hfiles : ∀ world, s.files world = files) :
    Yields (Run.files s) (fun found => found = files) [] :=
  fun session => ⟨files, session, returns_files_iff.mpr ⟨hfiles session.world, rfl⟩, rfl,
    (List.append_nil _).symm⟩

theorem yields_now (s : Surroundings σ) : Yields (Run.now s) (fun _ => True) [] :=
  fun session => ⟨s.now session.world, session, returns_now_iff.mpr ⟨rfl, rfl⟩, trivial,
    (List.append_nil _).symm⟩

end Run

end DepGraph

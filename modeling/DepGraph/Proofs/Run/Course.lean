import DepGraph.Proofs.Run.Reporting

/-!
# The course of a run

A run always ends, with a value or with an error, and all that it does to its session is to take
steps. So whatever can be said of a run is said of three things: the world in which it is started,
its outcome, and the steps that it has taken by then.

- `Ends`: a run ends with this outcome after these steps.
- `Behaves`: wherever a run is started, its end is of this kind; `behaves_bind` for one run after
  another, `behaves_start` for a start that a check guards.
- `Surroundings.Guarded`: files and phases are started only in worlds that let the run continue.
- `Surroundings.Guarded.not_isStart`: so none is started once the run is interrupted for good.
-/

namespace DepGraph

/-- Is a file or a phase started with the step? -/
def Step.isStart : Step → Bool
  | .opened _ | .reported (.started _) => true
  | _ => false

variable {σ α β : Type} {s : Surroundings σ} {session : Session σ} {world : σ}
  {outcome : Except Error α} {taken taken' : List Step}

/-! ## Worlds and sessions after several steps -/

namespace Surroundings

/-- The world after several steps. -/
def after (s : Surroundings σ) (world : σ) (taken : List Step) : σ :=
  taken.foldl (fun world step => s.advance step world) world

@[simp] theorem after_nil : s.after world [] = world := rfl

@[simp] theorem after_cons {step : Step} :
    s.after world (step :: taken) = s.after (s.advance step world) taken := rfl

theorem after_append : s.after world (taken ++ taken') = s.after (s.after world taken) taken' :=
  List.foldl_append

end Surroundings

namespace Session

/-- The session after several steps. -/
def takeAll (s : Surroundings σ) (taken : List Step) (session : Session σ) : Session σ :=
  taken.foldl (fun session step => session.take s step) session

theorem takeAll_append :
    session.takeAll s (taken ++ taken') = (session.takeAll s taken).takeAll s taken' :=
  List.foldl_append

theorem world_takeAll : (session.takeAll s taken).world = s.after session.world taken := by
  induction taken generalizing session with
  | nil => rfl
  | cons step taken ih => exact ih

theorem toList_steps_takeAll :
    (session.takeAll s taken).steps.toList = session.steps.toList ++ taken := by
  induction taken generalizing session with
  | nil => exact (List.append_nil _).symm
  | cons step taken ih =>
    refine ih.trans ?_
    show (session.steps.push step).toList ++ taken = _
    rw [Array.toList_push, List.append_assoc, List.singleton_append]

theorem events_takeAll :
    (session.takeAll s taken).events = session.events ++ taken.filterMap Step.event? := by
  induction taken generalizing session with
  | nil => exact (List.append_nil _).symm
  | cons step taken ih =>
    refine ih.trans ?_
    rw [events_take, List.append_assoc, List.filterMap_cons]
    cases step.event? <;> rfl

end Session

/-! ## Interruptions -/

namespace Surroundings

/-- In this world a run is stopped with the error: it was cancelled, or else its time is over. -/
def Stops (s : Surroundings σ) (world : σ) (e : Error) : Prop :=
  ¬ s.Continues world ∧ e = if s.isCancelled world then .cancelled else .timedOut

/-- Who was cancelled stays cancelled, and who is late stays late. -/
structure Lasting (s : Surroundings σ) : Prop where
  isCancelled_advance : ∀ step world, s.isCancelled world = true →
    s.isCancelled (s.advance step world) = true
  isExpired_advance : ∀ step world, s.isExpired world = true →
    s.isExpired (s.advance step world) = true

/-- If interruptions last, a run that may continue after a step could so before. -/
theorem Lasting.continues_of_advance (hs : s.Lasting) {step : Step}
    (h : s.Continues (s.advance step world)) : s.Continues world := by
  obtain ⟨hcancelled, hexpired⟩ := h
  constructor
  · exact Bool.eq_false_iff.mpr fun hc =>
      Bool.eq_false_iff.mp hcancelled (hs.isCancelled_advance step world hc)
  · exact Bool.eq_false_iff.mpr fun he =>
      Bool.eq_false_iff.mp hexpired (hs.isExpired_advance step world he)

/-- Whenever a file or a phase is started, the run may continue. -/
def Guarded (s : Surroundings σ) : σ → List Step → Prop
  | _, [] => True
  | world, step :: taken =>
    (step.isStart = true → s.Continues world) ∧ s.Guarded (s.advance step world) taken

@[simp] theorem guarded_nil : s.Guarded world [] := trivial

@[simp] theorem guarded_cons {step : Step} :
    s.Guarded world (step :: taken) ↔
      (step.isStart = true → s.Continues world) ∧ s.Guarded (s.advance step world) taken :=
  Iff.rfl

theorem guarded_append :
    s.Guarded world (taken ++ taken') ↔
      s.Guarded world taken ∧ s.Guarded (s.after world taken) taken' := by
  induction taken generalizing world with
  | nil => simp
  | cons step taken ih =>
    rw [List.cons_append, guarded_cons, guarded_cons, ih, and_assoc, after_cons]

/-- Steps that start nothing need no guard. -/
theorem guarded_of_not_isStart (h : ∀ step ∈ taken, step.isStart = false) :
    s.Guarded world taken := by
  induction taken generalizing world with
  | nil => trivial
  | cons step taken ih =>
    obtain ⟨hstep, htaken⟩ := List.forall_mem_cons.mp h
    exact guarded_cons.mpr ⟨fun hstart => absurd (hstep.symm.trans hstart) Bool.false_ne_true,
      ih htaken⟩

/-- Once the run is interrupted for good, nothing is started. -/
theorem Guarded.not_isStart (hs : s.Lasting) (h : s.Guarded world taken)
    (hstop : ¬ s.Continues world) : ∀ step ∈ taken, step.isStart = false := by
  induction taken generalizing world with
  | nil => exact nofun
  | cons step taken ih =>
    refine List.forall_mem_cons.mpr ⟨Bool.eq_false_iff.mpr fun hstart => hstop (h.1 hstart), ?_⟩
    exact ih h.2 fun hcontinues => hstop (hs.continues_of_advance hcontinues)

end Surroundings

/-! ## How a run ends -/

namespace Run

/-- The run ends with the outcome, and has taken these steps. -/
def Ends (s : Surroundings σ) (x : Run σ α) (session : Session σ) (outcome : Except Error α)
    (taken : List Step) : Prop :=
  x.run.run session = (outcome, session.takeAll s taken)

/-- The steps that are taken can be read off the session. -/
theorem Ends.toList_steps {x : Run σ α} {world : σ} (h : Ends s x ⟨world, #[]⟩ outcome taken) :
    (x.run.run ⟨world, #[]⟩).2.steps.toList = taken := by
  rw [h, Session.toList_steps_takeAll]
  rfl

theorem ends_bind {x : Run σ α} {f : α → Run σ β} {a : α} {outcome : Except Error β}
    (hx : Ends s x session (.ok a) taken)
    (hf : Ends s (f a) (session.takeAll s taken) outcome taken') :
    Ends s (x >>= f) session outcome (taken ++ taken') := by
  unfold Ends
  rw [run_bind, hx, Session.takeAll_append]
  exact hf

theorem ends_bind_error {x : Run σ α} {f : α → Run σ β} {e : Error}
    (hx : Ends s x session (.error e) taken) : Ends s (x >>= f) session (.error e) taken := by
  unfold Ends
  rw [run_bind, hx]

/-- A look at the surroundings takes no step. -/
theorem ends_bind_of_returns {x : Run σ α} {f : α → Run σ β} {a : α} {outcome : Except Error β}
    (hx : Returns x session a session) (hf : Ends s (f a) session outcome taken) :
    Ends s (x >>= f) session outcome taken := by
  have hnothing : Ends s x session (.ok a) [] := hx
  exact ends_bind hnothing hf

theorem ends_bind_record {f : Unit → Run σ β} {outcome : Except Error β} {step : Step}
    (hf : Ends s (f ()) (session.take s step) outcome taken) :
    Ends s ((liftM (record s step) : Run σ Unit) >>= f) session outcome (step :: taken) := by
  have hstep : Ends s (liftM (record s step) : Run σ Unit) session (.ok ()) [step] := rfl
  exact ends_bind hstep hf

theorem ends_ofExcept (x : Except Error α) : Ends s (MonadExcept.ofExcept x) session x [] := by
  cases x <;> rfl

/-- A check that does not let the run go on. -/
theorem ends_check_of_stops {e : Error} (h : s.Stops session.world e) :
    Ends s (check s) session (.error e) [] := by
  obtain ⟨hstops, rfl⟩ := h
  have hget : (get : Run σ (Session σ)).run.run session = (.ok session, session) := rfl
  unfold Ends check
  rw [run_bind, hget]
  dsimp only
  cases hcancelled : s.isCancelled session.world with
  | true => rfl
  | false =>
    cases hexpired : s.isExpired session.world with
    | true => rfl
    | false => exact absurd ⟨hcancelled, hexpired⟩ hstops

/-- What is done in any case is done however the run ends. -/
theorem ends_finally {body : Run σ α} (h : Ends s body session outcome taken) (step : Step) :
    Ends s (ExceptT.mk do let result ← body.run; record s step; return result) session outcome
      (taken ++ [step]) := by
  have hrun : (ExceptT.mk (do let result ← body.run; record s step; return result) :
      Run σ α).run.run session =
      ((body.run.run session).1, ((record s step).run (body.run.run session).2).2) := rfl
  unfold Ends
  rw [hrun, h, Session.takeAll_append]
  rfl

/-! ## How a run behaves -/

/-- Wherever the run is started, the world there, its outcome and the steps that it takes are of
this kind. -/
def Behaves (s : Surroundings σ) (x : Run σ α) (P : σ → Except Error α → List Step → Prop) : Prop :=
  ∀ session, ∃ outcome taken, Ends s x session outcome taken ∧ P session.world outcome taken

variable {P Q : σ → Except Error α → List Step → Prop} {R : σ → Except Error β → List Step → Prop}

theorem behaves_mono {x : Run σ α} (hx : Behaves s x P)
    (hPQ : ∀ world outcome taken, P world outcome taken → Q world outcome taken) :
    Behaves s x Q := by
  intro session
  obtain ⟨outcome, taken, hends, h⟩ := hx session
  exact ⟨outcome, taken, hends, hPQ _ _ _ h⟩

theorem behaves_pure {a : α} (h : ∀ world, P world (.ok a) []) : Behaves s (pure a) P :=
  fun session => ⟨.ok a, [], rfl, h session.world⟩

/-- One run after another: the second one starts where the first one has come to. -/
theorem behaves_bind {x : Run σ α} {f : α → Run σ β} {Q : α → σ → Except Error β → List Step → Prop}
    (hx : Behaves s x P) (hf : ∀ a, Behaves s (f a) (Q a))
    (herror : ∀ world e taken, P world (.error e) taken → R world (.error e) taken)
    (hok : ∀ world a taken outcome taken', P world (.ok a) taken →
      Q a (s.after world taken) outcome taken' → R world outcome (taken ++ taken')) :
    Behaves s (x >>= f) R := by
  intro session
  obtain ⟨first, taken, hends, hfirst⟩ := hx session
  cases first with
  | error e => exact ⟨.error e, taken, ends_bind_error hends, herror _ _ _ hfirst⟩
  | ok a =>
    obtain ⟨outcome, taken', hends', hsecond⟩ := hf a (session.takeAll s taken)
    rw [Session.world_takeAll] at hsecond
    exact ⟨outcome, taken ++ taken', ends_bind hends hends', hok _ _ _ _ _ hfirst hsecond⟩

/-- A look at the surroundings leaves what comes after it as it is. -/
theorem behaves_bind_of_returns {x : Run σ α} {f : α → Run σ β}
    (hx : ∀ session, ∃ a, Returns x session a session) (hf : ∀ a, Behaves s (f a) R) :
    Behaves s (x >>= f) R := by
  intro session
  obtain ⟨a, ha⟩ := hx session
  obtain ⟨outcome, taken, hends, h⟩ := hf a session
  exact ⟨outcome, taken, ends_bind_of_returns ha hends, h⟩

theorem behaves_bind_now {f : Timestamp → Run σ β} (hf : ∀ now, Behaves s (f now) R) :
    Behaves s (Run.now s >>= f) R :=
  behaves_bind_of_returns
    (fun session => ⟨s.now session.world, returns_now_iff.mpr ⟨rfl, rfl⟩⟩) hf

/-- A step that starts nothing. -/
theorem behaves_bind_record {f : Unit → Run σ β} {Q : σ → Except Error β → List Step → Prop}
    (step : Step) (hf : Behaves s (f ()) Q)
    (h : ∀ world outcome taken, Q (s.advance step world) outcome taken →
      R world outcome (step :: taken)) :
    Behaves s ((liftM (record s step) : Run σ Unit) >>= f) R := by
  intro session
  obtain ⟨outcome, taken, hends, hrest⟩ := hf (session.take s step)
  exact ⟨outcome, step :: taken, ends_bind_record hends, h _ _ _ hrest⟩

/-- A check lets the run go on, or stops it for the reason that there is. -/
theorem behaves_bind_check {f : Unit → Run σ β} {Q : σ → Except Error β → List Step → Prop}
    (hstop : ∀ world e, s.Stops world e → R world (.error e) []) (hf : Behaves s (f ()) Q)
    (h : ∀ world outcome taken, s.Continues world → Q world outcome taken →
      R world outcome taken) :
    Behaves s (check s >>= f) R := by
  intro session
  by_cases hcontinues : s.Continues session.world
  · obtain ⟨outcome, taken, hends, hrest⟩ := hf session
    have hcheck := check_eq_pure hcontinues.1 hcontinues.2
    exact ⟨outcome, taken, ends_bind_of_returns hcheck hends, h _ _ _ hcontinues hrest⟩
  · exact ⟨_, [], ends_bind_error (ends_check_of_stops ⟨hcontinues, rfl⟩),
      hstop _ _ ⟨hcontinues, rfl⟩⟩

/-- A check and the start that it guards. -/
theorem behaves_start {f : Unit → Run σ β} {Q : σ → Except Error β → List Step → Prop}
    (step : Step) (hstop : ∀ world e, s.Stops world e → R world (.error e) [])
    (hf : Behaves s (f ()) Q)
    (h : ∀ world outcome taken, s.Continues world → Q (s.advance step world) outcome taken →
      R world outcome (step :: taken)) :
    Behaves s (do check s; (liftM (record s step) : Run σ Unit) >>= f) R :=
  behaves_bind_check hstop
    (behaves_bind_record (R := fun world outcome rest =>
      ∃ taken, rest = step :: taken ∧ Q (s.advance step world) outcome taken) step hf
      fun _ _ taken hrest => ⟨taken, rfl, hrest⟩)
    fun world outcome _ hcontinues ⟨taken, heq, hrest⟩ =>
      heq ▸ h world outcome taken hcontinues hrest

end Run

end DepGraph

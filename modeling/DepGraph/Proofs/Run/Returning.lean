import DepGraph.Run.Session

/-!
# What a run returns

A run that returns has returned at every step, so what it returns can be told step by step: one
equivalence for each thing that a run can do, and one for doing one thing after another. None of
them looks at the surroundings, which may change with every step.

- `Returns`: a run returns a value and leaves a session.
- `returns_bind_iff`: one run after another.
- `returns_phase_iff`: a phase returns what its body returns, between two reports.
- `Steady`: surroundings whose files stay as they are and in which nothing interrupts a run.
- `Succeeds`: a run that always returns; `succeeds_phase` says when a phase does.
-/

namespace DepGraph

/-- The session after one more step. -/
def Session.take {σ : Type} (s : Surroundings σ) (step : Step) (session : Session σ) : Session σ :=
  ⟨s.advance step session.world, session.steps.push step⟩

/-- The surroundings tell the run to go on. -/
def Surroundings.Continues {σ : Type} (s : Surroundings σ) (world : σ) : Prop :=
  s.isCancelled world = false ∧ s.isExpired world = false

/-- The files stay as they are, and nothing interrupts a run. -/
structure Surroundings.Steady {σ : Type} (s : Surroundings σ) (files : FileSystem) : Prop where
  files_eq : ∀ world, s.files world = files
  continues : ∀ world, s.Continues world

/-- Surroundings in which nothing happens at all. -/
def Surroundings.still (files : FileSystem) : Surroundings Unit where
  files _ := files
  isCancelled _ := false
  isExpired _ := false
  now _ := default
  advance _ _ := ()

theorem Surroundings.steady_still (files : FileSystem) : (still files).Steady files where
  files_eq _ := rfl
  continues _ := ⟨rfl, rfl⟩

namespace Run

variable {σ α β : Type} {s : Surroundings σ} {session session' : Session σ}

/-- The run returns the value and leaves the session. -/
def Returns (x : Run σ α) (session : Session σ) (a : α) (session' : Session σ) : Prop :=
  x.run.run session = (.ok a, session')

theorem Returns.unique {x : Run σ α} {a a' : α} {last last' : Session σ}
    (h : Returns x session a last) (h' : Returns x session a' last') : a = a' ∧ last = last' := by
  obtain ⟨ha, hlast⟩ := Prod.mk.inj (h.symm.trans h')
  exact ⟨Except.ok.inj ha, hlast⟩

/-- A run that passes a check on what it returns, returns it. -/
theorem exists_returns_of_any (x : Run σ α) (session : Session σ) (check : α → Bool)
    (h : (x.run.run session).1.toOption.any check = true) :
    ∃ a session', Returns x session a session' ∧ check a = true := by
  rcases hx : x.run.run session with ⟨_ | a, session'⟩
  · rw [hx] at h
    exact absurd h Bool.false_ne_true
  · rw [hx] at h
    exact ⟨a, session', hx, h⟩

/-! ## One thing after another -/

@[simp] theorem returns_pure_iff {a b : α} :
    Returns (pure a : Run σ α) session b session' ↔ a = b ∧ session = session' := by
  show (Except.ok a, session) = (Except.ok b, session') ↔ _
  rw [Prod.mk.injEq, Except.ok.injEq]

@[simp] theorem returns_throw_iff {e : Error} {a : α} :
    Returns (throw e : Run σ α) session a session' ↔ False := by
  show (Except.error e, session) = (Except.ok a, session') ↔ _
  simp

/-- What is done after a run depends on how it ends. -/
theorem run_bind (x : Run σ α) (f : α → Run σ β) (session : Session σ) :
    (x >>= f).run.run session =
      match x.run.run session with
      | (.ok a, between) => (f a).run.run between
      | (.error e, between) => (.error e, between) := by
  rw [ExceptT.run_bind, StateT.run_bind]
  show StateT.run _ (x.run.run session).2 = _
  rcases x.run.run session with ⟨_ | _, _⟩ <;> rfl

theorem returns_bind_iff {x : Run σ α} {f : α → Run σ β} {b : β} :
    Returns (x >>= f) session b session' ↔
      ∃ a between, Returns x session a between ∧ Returns (f a) between b session' := by
  unfold Returns
  rw [run_bind]
  constructor
  · intro h
    split at h
    · next a between hx => exact ⟨a, between, hx, h⟩
    · cases h
  · rintro ⟨a, between, hx, hf⟩
    rw [hx]
    exact hf

theorem returns_ofExcept_iff {x : Except Error α} {a : α} :
    Returns (MonadExcept.ofExcept x : Run σ α) session a session' ↔
      x = .ok a ∧ session = session' := by
  cases x with
  | error e => exact returns_throw_iff.trans (by simp)
  | ok b => exact returns_pure_iff.trans (by simp)

/-! ## Looking at the surroundings -/

@[simp] theorem returns_files_iff {files : FileSystem} :
    Returns (Run.files s) session files session' ↔
      s.files session.world = files ∧ session = session' := by
  show (Except.ok (s.files session.world), session) = (Except.ok files, session') ↔ _
  rw [Prod.mk.injEq, Except.ok.injEq]

@[simp] theorem returns_now_iff {now : Timestamp} :
    Returns (Run.now s) session now session' ↔ s.now session.world = now ∧ session = session' := by
  show (Except.ok (s.now session.world), session) = (Except.ok now, session') ↔ _
  rw [Prod.mk.injEq, Except.ok.injEq]

@[simp] theorem returns_get_iff {now : Session σ} :
    Returns (get : Run σ (Session σ)) session now session' ↔
      session = now ∧ session = session' := by
  show (Except.ok session, session) = (Except.ok now, session') ↔ _
  rw [Prod.mk.injEq, Except.ok.injEq]

/-- A check lets through exactly what nothing interrupts. -/
@[simp] theorem returns_check_iff {u : Unit} :
    Returns (check s) session u session' ↔ s.Continues session.world ∧ session = session' := by
  unfold Surroundings.Continues check
  rw [← Interruption.interruption?_eq_none_iff, returns_bind_iff]
  constructor
  · rintro ⟨now, _, hnow, h⟩
    obtain ⟨rfl, rfl⟩ := returns_get_iff.mp hnow
    dsimp only at h
    split at h
    · exact (returns_throw_iff.mp h).elim
    · next hnone => exact ⟨hnone, (returns_pure_iff.mp h).2⟩
  · rintro ⟨hnone, rfl⟩
    refine ⟨session, session, returns_get_iff.mpr ⟨rfl, rfl⟩, ?_⟩
    dsimp only
    rw [hnone]
    exact returns_pure_iff.mpr ⟨rfl, rfl⟩

/-! ## Taking steps -/

@[simp] theorem returns_record_iff {step : Step} {u : Unit} :
    Returns (liftM (record s step) : Run σ Unit) session u session' ↔
      session.take s step = session' := by
  show (Except.ok (), session.take s step) = (Except.ok u, session') ↔ _
  rw [Prod.mk.injEq]
  exact and_iff_right rfl

@[simp] theorem returns_report_iff {event : Event} {u : Unit} :
    Returns (report s event) session u session' ↔
      session.take s (.reported event) = session' :=
  returns_record_iff

/-- What is done in any case is done after a run that returns. -/
theorem returns_finally_iff {body : Run σ α} {last : StateM (Session σ) Unit} {a : α} :
    Returns (ExceptT.mk do let result ← body.run; last; return result) session a session' ↔
      ∃ between, Returns body session a between ∧ (last.run between).2 = session' := by
  have hrun : (ExceptT.mk (do let result ← body.run; last; return result) :
      Run σ α).run.run session =
      ((body.run.run session).1, (last.run (body.run.run session).2).2) := rfl
  unfold Returns
  rw [hrun, Prod.mk.injEq]
  constructor
  · rintro ⟨hbody, hlast⟩
    exact ⟨_, Prod.ext hbody rfl, hlast⟩
  · rintro ⟨between, hbody, hlast⟩
    rw [hbody]
    exact ⟨rfl, hlast⟩

/-- A phase returns what its body returns, between two reports. -/
theorem returns_phase_iff {p : Phase} {body : Run σ α} {a : α} :
    Returns (phase s p body) session a session' ↔
      s.Continues session.world ∧ ∃ between,
        Returns body (session.take s (.reported (.started p))) a between ∧
          between.take s (.reported (.completed p)) = session' := by
  unfold phase
  simp only [returns_bind_iff, returns_check_iff, returns_report_iff, returns_finally_iff]
  constructor
  · rintro ⟨_, _, ⟨hcontinues, rfl⟩, _, _, rfl, between, hbody, hlast⟩
    exact ⟨hcontinues, between, hbody, hlast⟩
  · rintro ⟨hcontinues, between, hbody, hlast⟩
    exact ⟨(), session, ⟨hcontinues, rfl⟩, (), _, rfl, between, hbody, hlast⟩

theorem exists_returns_phase_iff {p : Phase} {body : Run σ α} (hs : ∀ world, s.Continues world) :
    (∃ a session', Returns (phase s p body) session a session') ↔
      ∃ a between, Returns body (session.take s (.reported (.started p))) a between := by
  simp only [returns_phase_iff]
  constructor
  · rintro ⟨a, _, -, between, hbody, -⟩
    exact ⟨a, between, hbody⟩
  · rintro ⟨a, between, hbody⟩
    exact ⟨a, _, hs session.world, between, hbody, rfl⟩

/-! ## Runs that always return -/

/-- The run returns, whatever the session. -/
def Succeeds (x : Run σ α) : Prop :=
  ∀ session, ∃ a session', Returns x session a session'

theorem succeeds_pure (a : α) : Succeeds (pure a : Run σ α) :=
  fun session => ⟨a, session, returns_pure_iff.mpr ⟨rfl, rfl⟩⟩

theorem succeeds_files (s : Surroundings σ) : Succeeds (Run.files s) :=
  fun session => ⟨s.files session.world, session, returns_files_iff.mpr ⟨rfl, rfl⟩⟩

theorem succeeds_record (s : Surroundings σ) (step : Step) :
    Succeeds (liftM (record s step) : Run σ Unit) :=
  fun session => ⟨(), session.take s step, returns_record_iff.mpr rfl⟩

theorem succeeds_check (hs : ∀ world, s.Continues world) : Succeeds (check s) :=
  fun session => ⟨(), session, returns_check_iff.mpr ⟨hs session.world, rfl⟩⟩

theorem succeeds_now (s : Surroundings σ) : Succeeds (Run.now s) :=
  fun session => ⟨s.now session.world, session, returns_now_iff.mpr ⟨rfl, rfl⟩⟩

theorem succeeds_bind {x : Run σ α} {f : α → Run σ β} (hx : Succeeds x)
    (hf : ∀ a, Succeeds (f a)) : Succeeds (x >>= f) := by
  intro session
  obtain ⟨a, between, ha⟩ := hx session
  obtain ⟨b, session', hb⟩ := hf a between
  exact ⟨b, session', returns_bind_iff.mpr ⟨a, between, ha, hb⟩⟩

theorem succeeds_phase {p : Phase} {body : Run σ α} (hs : ∀ world, s.Continues world)
    (hbody : Succeeds body) : Succeeds (phase s p body) := by
  intro session
  obtain ⟨a, between, ha⟩ := hbody (session.take s (.reported (.started p)))
  exact ⟨a, _, returns_phase_iff.mpr ⟨hs session.world, between, ha, rfl⟩⟩

end Run

end DepGraph

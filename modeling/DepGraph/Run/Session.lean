import DepGraph.Files.Discovery
import DepGraph.Files.Reading
import DepGraph.Run.Cancellation
import DepGraph.Run.Progress

/-!
# Sessions

A run takes one step after another, and its surroundings may change with every step: files come and
go, somebody cancels the run, time passes. The session keeps the steps that were taken, also when
the run fails.

* `steps_record`: a step is kept after those that were taken before.
* `check_eq_pure`: without an interruption, a check changes nothing.
-/

namespace DepGraph

/-- A step of a run. -/
inductive Step where
  /-- The reading of the file at the given place in the list of files was finished ahead of time. -/
  | finished (index : Nat)
  /-- The processing of a file was started. -/
  | opened (file : SourceFile)
  /-- An event was reported. -/
  | reported (event : Event)
  deriving DecidableEq

/-- What a run can see of its surroundings, and how they change with a step. -/
structure Surroundings (σ : Type) where
  files : σ → FileSystem
  isCancelled : σ → Bool
  isExpired : σ → Bool
  now : σ → Timestamp
  advance : Step → σ → σ

/-- The surroundings of a run and the steps that it has taken. -/
structure Session (σ : Type) where
  world : σ
  steps : Array Step := #[]

/-- A computation that takes steps and may fail. -/
abbrev Run (σ : Type) := ExceptT Error (StateM (Session σ))

namespace Run

variable {σ α : Type}

/-- Takes a step. -/
def record (s : Surroundings σ) (step : Step) : StateM (Session σ) Unit :=
  modify fun session => ⟨s.advance step session.world, session.steps.push step⟩

/-- Reports an event. -/
def report (s : Surroundings σ) (event : Event) : Run σ Unit :=
  record s (.reported event)

/-- Fails if the run has to stop. -/
def check (s : Surroundings σ) : Run σ Unit := do
  let world := (← get).world
  match Interruption.interruption? (s.isCancelled world) (s.isExpired world) with
  | some interruption => throw interruption.error
  | none => pure ()

/-- The files as they are now. -/
def files (s : Surroundings σ) : Run σ FileSystem :=
  return s.files (← get).world

/-- The time as it is now. -/
def now (s : Surroundings σ) : Run σ Timestamp :=
  return s.now (← get).world

/-- Runs a phase, unless the run has to stop. The phase is completed even if it fails. -/
def phase (s : Surroundings σ) (p : Phase) (body : Run σ α) : Run σ α := do
  check s
  report s (.started p)
  ExceptT.mk do
    let result ← body.run
    record s (.reported (.completed p))
    return result

/-- Runs a phase, unless the run has to stop. The phase is completed only if it does not fail. -/
def openPhase (s : Surroundings σ) (p : Phase) (body : Run σ α) : Run σ α := do
  check s
  report s (.started p)
  let result ← body
  report s (.completed p)
  return result

theorem steps_record (s : Surroundings σ) (step : Step) (session : Session σ) :
    ((record s step).run session).2.steps = session.steps.push step := rfl

theorem check_eq_pure {s : Surroundings σ} {session : Session σ}
    (hc : s.isCancelled session.world = false) (he : s.isExpired session.world = false) :
    (check s).run.run session = (.ok (), session) := by
  have h : Interruption.interruption? (s.isCancelled session.world) (s.isExpired session.world) =
      none := (Interruption.interruption?_eq_none_iff _ _).mpr ⟨hc, he⟩
  show (match Interruption.interruption? (s.isCancelled session.world)
      (s.isExpired session.world) with
    | some interruption => (throw interruption.error : Run σ Unit)
    | none => pure ()).run.run session = _
  rw [h]
  rfl

end Run

end DepGraph

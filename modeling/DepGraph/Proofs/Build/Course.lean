import DepGraph.Proofs.Build.Directory
import DepGraph.Proofs.Run.Bracketing

/-!
# The course of a build

While the graph of a directory is built, files are started one after another, each after a check,
and nothing but files is reported. If the build fails, then because the source files cannot be found,
or because its last check stopped it.

- `Underway`: what a run does that builds a graph; `Plan.behaves_processAll`, `Plan.behaves_readAll`
  and `Plan.behaves_processRead` are such runs.
- `isOfFiles_process`: what is reported of a file is about files.
- `behaves_ofDirectory`: a run over a directory fails at once, or is such a run.
-/

namespace DepGraph.Build

open Run

variable {σ α β : Type} {s : Surroundings σ} {world : σ} {taken taken' : List Step}

/-- What is done by a run that builds a graph. If it fails, its last check stopped it. -/
structure Underway (s : Surroundings σ) (world : σ) (outcome : Except Error α)
    (taken : List Step) : Prop where
  guarded : s.Guarded world taken
  isOfFiles : ∀ event ∈ taken.filterMap Step.event?, event.isOfFiles = true
  stopped : ∀ e, outcome = .error e → s.Stops (s.after world taken) e

namespace Underway

theorem nil (a : α) : Underway s world (.ok a) [] where
  guarded := trivial
  isOfFiles := nofun
  stopped := nofun

theorem of_stops {e : Error} (h : s.Stops world e) :
    Underway s world (.error e : Except Error α) [] where
  guarded := trivial
  isOfFiles := nofun
  stopped := by rintro _ ⟨⟩; exact h

theorem of_error {e : Error} (h : Underway s world (.error e : Except Error α) taken) :
    Underway s world (.error e : Except Error β) taken where
  guarded := h.guarded
  isOfFiles := h.isOfFiles
  stopped e he := h.stopped e (congrArg _ (Except.error.inj he))

theorem append {outcome : Except Error α} (hguarded : s.Guarded world taken)
    (hfiles : ∀ event ∈ taken.filterMap Step.event?, event.isOfFiles = true)
    (h : Underway s (s.after world taken) outcome taken') :
    Underway s world outcome (taken ++ taken') where
  guarded := Surroundings.guarded_append.mpr ⟨hguarded, h.guarded⟩
  isOfFiles := by
    rw [List.filterMap_append]
    exact List.forall_mem_append.mpr ⟨hfiles, h.isOfFiles⟩
  stopped e he := by
    rw [Surroundings.after_append]
    exact h.stopped e he

/-- A step that starts nothing, and reports at most something about files. -/
theorem cons {outcome : Except Error α} {step : Step} (hstart : step.isStart = false)
    (hfiles : ∀ event ∈ step.event?, event.isOfFiles = true)
    (h : Underway s (s.advance step world) outcome taken) :
    Underway s world outcome (step :: taken) := by
  have hguarded : s.Guarded world [step] :=
    Surroundings.guarded_of_not_isStart (List.forall_mem_singleton.mpr hstart)
  refine append hguarded (fun event hevent => hfiles event ?_) h
  obtain ⟨_, hmem, hstep⟩ := List.mem_filterMap.mp hevent
  exact List.mem_singleton.mp hmem ▸ hstep

end Underway

theorem behaves_bind_underway {x : Run σ α} {f : α → Run σ β}
    (hx : Behaves s x (Underway s)) (hf : ∀ a, Behaves s (f a) (Underway s)) :
    Behaves s (x >>= f) (Underway s) :=
  behaves_bind hx hf (fun _ _ _ h => h.of_error) fun _ _ _ _ _ h h' =>
    .append h.guarded h.isOfFiles h'

/-- What is reported of a file is about files. -/
theorem isOfFiles_process (tools : Toolbox) (scope : Scope) (f : SourceFile)
    (content : Except FileError SourceText) (b : Build) :
    (b.process tools scope f content).2.isOfFiles = true := by
  cases content with
  | error e => rfl
  | ok source =>
    simp only [process, addSource]
    cases tools.parsers.parserOf? (f.path scope.root) with
    | none => rfl
    | some parser =>
      dsimp only
      cases parser.parse (f.path scope.root) source.text <;> rfl

/-! ## Files, one after another -/

theorem Plan.behaves_processOne (p : Plan) (f : SourceFile)
    (content : FileSystem → Except FileError SourceText) (b : Build) :
    Behaves s (p.processOne s f content b) (Underway s) := by
  refine behaves_start (Q := fun _ outcome taken => outcome.isOk = true ∧
    ∃ event : Event, event.isOfFiles = true ∧ taken = [.reported event]) (.opened f)
    (fun _ _ => .of_stops) ?_ ?_
  · refine behaves_bind_of_returns (fun session => ⟨_, returns_files_iff.mpr ⟨rfl, rfl⟩⟩) ?_
    intro files
    refine behaves_bind_record (Q := fun _ outcome taken => outcome.isOk = true ∧ taken = [])
      (.reported (b.process p.tools (p.scope files) f (content files)).2)
      (behaves_pure fun _ => ⟨rfl, rfl⟩) ?_
    rintro _ outcome _ ⟨hok, rfl⟩
    exact ⟨hok, _, isOfFiles_process .., rfl⟩
  · rintro world outcome _ hcontinues ⟨hok, event, hevent, rfl⟩
    refine
      { guarded := ⟨fun _ => hcontinues, ?_⟩
        isOfFiles := List.forall_mem_singleton.mpr hevent
        stopped := by rintro e rfl; exact absurd hok Bool.false_ne_true }
    refine Surroundings.guarded_of_not_isStart (List.forall_mem_singleton.mpr ?_)
    cases event <;> first | rfl | exact absurd hevent Bool.false_ne_true

theorem Plan.behaves_processAll (p : Plan) (sources : List SourceFile) (b : Build) :
    Behaves s (p.processAll s sources b) (Underway s) := by
  induction sources generalizing b with
  | nil => exact behaves_pure fun _ => .nil b
  | cons f sources ih => exact behaves_bind_underway (behaves_processOne p f _ b) ih

theorem Plan.behaves_processRead (p : Plan) (readings : Plan.Readings)
    (sources : List (SourceFile × Nat)) (b : Build) :
    Behaves s (p.processRead s readings sources b) (Underway s) := by
  induction sources generalizing b with
  | nil => exact behaves_pure fun _ => .nil b
  | cons source sources ih => exact behaves_bind_underway (behaves_processOne p source.1 _ b) ih

/-- A reading starts nothing and is checked when it is finished. -/
theorem Plan.behaves_readAll (p : Plan) (sources : Array SourceFile) (order : List Nat)
    (readings : Plan.Readings) :
    Behaves s (p.readAll s sources order readings) (Underway s) := by
  induction order generalizing readings with
  | nil => exact behaves_pure fun _ => .nil readings
  | cons index order ih =>
    refine behaves_bind_record (Q := Underway s) (.finished index) ?_ fun _ _ _ h =>
      .cons rfl nofun h
    refine behaves_bind_check (fun _ _ => .of_stops) ?_ fun _ _ _ _ h => h
    cases sources[index]? with
    | none => exact ih readings
    | some f =>
      exact behaves_bind_of_returns (fun session => ⟨_, returns_files_iff.mpr ⟨rfl, rfl⟩⟩)
        fun files => ih _

/-! ## The directory -/

theorem behaves_processSources (p : Plan) (sources : List SourceFile) (reading : Reading) :
    Behaves s (processSources p s sources reading) (Underway s) := by
  cases reading with
  | inTurn => exact behaves_bind_now fun _ => p.behaves_processAll sources _
  | beforehand order =>
    exact behaves_bind_underway (p.behaves_readAll _ _ _) fun readings =>
      behaves_bind_now fun _ => p.behaves_processRead readings _ _

/-- A run over a directory fails at once, because the source files cannot be found, or builds a
graph until it is stopped. -/
theorem behaves_ofDirectory (c : Configuration) (tools : Toolbox) (reading : Reading)
    (root : WrittenPath) :
    Behaves s (ofDirectory c tools reading s root) fun world outcome taken =>
      (∃ e, discovery c (s.files world) root = .error e ∧ outcome = .error e ∧ taken = []) ∨
        Underway s world outcome taken := by
  intro session
  have hrun : (ofDirectory c tools reading s root).run.run session = _ :=
    run_ofDirectory reading session
  cases h : discovery c (s.files session.world) root with
  | error e =>
    rw [h] at hrun
    exact ⟨.error e, [], hrun, .inl ⟨e, h, rfl, rfl⟩⟩
  | ok found =>
    rw [h] at hrun
    obtain ⟨outcome, taken, hends, hunderway⟩ := behaves_processSources ⟨c, tools, found.1⟩ found.2
      reading (session.take s (.reported (.discovered found.2.length)))
    refine ⟨outcome, _ :: taken, hrun.trans hends, .inr (.cons rfl ?_ hunderway)⟩
    rintro _ ⟨⟩
    rfl

end DepGraph.Build

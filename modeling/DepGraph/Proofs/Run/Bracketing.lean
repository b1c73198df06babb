import DepGraph.Proofs.Run.Course

/-!
# Phases, one after the other

A run that goes through phases starts each of them after a check and completes it before it starts
the next one. If a check stops it between two phases, it has gone through the first ones and through
nothing of the others.

- `Bracketed`: the events of these phases, one after the other.
- `WellBracketed`: the events of the first phases of an analysis, however many.
- `not_wellBracketed_of_open`: a phase that is never completed spoils this.
- `StopsAfter`: the last check of a run stopped it, and nothing was done afterwards.
- `Course`: what a run does that goes through these phases; `Course.append`, `Course.of_error` for
  one such run after another.
- `behaves_phase`: a single phase, whose body takes no step.
-/

namespace DepGraph

/-- Is the event about source files, and not about a phase? -/
def Event.isOfFiles : Event → Bool
  | .started _ | .completed _ => false
  | _ => true

/-- The events are those of these phases, one after the other. Each phase is started and then
completed; between the two, files are reported if the phase is that in which the graph is built, and
nothing otherwise. -/
inductive Bracketed : List Phase → List Event → Prop
  | nil : Bracketed [] []
  | cons {p : Phase} {phases : List Phase} {inner events : List Event}
      (hinner : ∀ event ∈ inner, p = .build ∧ event.isOfFiles = true)
      (hrest : Bracketed phases events) :
      Bracketed (p :: phases) (.started p :: (inner ++ .completed p :: events))

/-- The events are those of the first phases of an analysis, one after the other. -/
def WellBracketed (events : List Event) : Prop :=
  ∃ phases, phases <+: Phase.all ∧ Bracketed phases events

theorem Bracketed.single (p : Phase) : Bracketed [p] [.started p, .completed p] :=
  @cons p [] [] [] nofun .nil

theorem Bracketed.append {phases phases' : List Phase} {events events' : List Event}
    (h : Bracketed phases events) (h' : Bracketed phases' events') :
    Bracketed (phases ++ phases') (events ++ events') := by
  induction h with
  | nil => exact h'
  | cons hinner _ ih =>
    simp only [List.cons_append, List.append_assoc]
    exact .cons hinner ih

/-- Every phase is reported when it is started. -/
theorem Bracketed.started_mem {phases : List Phase} {events : List Event}
    (h : Bracketed phases events) : ∀ p ∈ phases, .started p ∈ events := by
  induction h with
  | nil => exact nofun
  | cons _ _ ih =>
    refine List.forall_mem_cons.mpr ⟨List.mem_cons_self, fun p hp => ?_⟩
    exact List.mem_cons_of_mem _ (List.mem_append_right _ (List.mem_cons_of_mem _ (ih p hp)))

/-- A phase that is never completed is a phase too much. -/
theorem not_wellBracketed_of_open {p : Phase} {inner : List Event}
    (hinner : ∀ event ∈ inner, event.isOfFiles = true) : ¬ WellBracketed (.started p :: inner) := by
  rintro ⟨phases, -, h⟩
  cases h with
  | cons =>
    have hcompleted := hinner (.completed p) (by simp)
    exact Bool.false_ne_true hcompleted

namespace Run

variable {σ α β : Type} {s : Surroundings σ} {world : σ} {phases phases' : List Phase}
  {why why' : σ → List Step → Error → Prop} {taken taken' : List Step}

/-- The last check of the run stopped it with the error, and nothing was done afterwards. -/
def StopsAfter (s : Surroundings σ) (world : σ) (taken : List Step) (e : Error) : Prop :=
  s.Stops (s.after world taken) e

theorem StopsAfter.append {e : Error} (h : StopsAfter s (s.after world taken) taken' e) :
    StopsAfter s world (taken ++ taken') e := by
  rwa [StopsAfter, Surroundings.after_append]

/-- The first check of the run stopped it with the error. -/
def StopsAtOnce (s : Surroundings σ) (world : σ) (taken : List Step) (e : Error) : Prop :=
  taken = [] ∧ s.Stops world e

theorem StopsAtOnce.stopsAfter {e : Error} (h : StopsAtOnce s world taken e) :
    StopsAfter s world taken e := by
  obtain ⟨rfl, hstops⟩ := h
  exact hstops

/-- What is done by a run that goes through phases. If it returns, it has gone through all of them.
If it fails, there is a reason why. -/
structure Course (s : Surroundings σ) (phases : List Phase) (why : σ → List Step → Error → Prop)
    (world : σ) (outcome : Except Error α) (taken : List Step) : Prop where
  guarded : s.Guarded world taken
  bracketed : ∃ done, done <+: phases ∧ Bracketed done (taken.filterMap Step.event?) ∧
    (outcome.isOk = true → done = phases)
  explained : ∀ e, outcome = .error e → why world taken e

namespace Course

theorem nil (a : α) : Course s [] why world (.ok a) [] where
  guarded := trivial
  bracketed := ⟨[], List.prefix_rfl, .nil, fun _ => rfl⟩
  explained := nofun

/-- A run that is over before it begins. -/
theorem of_nothing {e : Error} (h : why world [] e) :
    Course s phases why world (.error e : Except Error α) [] where
  guarded := trivial
  bracketed := ⟨[], List.nil_prefix, .nil, fun hok => absurd hok Bool.false_ne_true⟩
  explained := by rintro _ ⟨⟩; exact h

/-- A run that goes through more phases, after one that has returned. -/
theorem append {a : α} {outcome : Except Error β}
    (h : Course s phases why world (.ok a) taken)
    (h' : Course s phases' (StopsAfter s) (s.after world taken) outcome taken') :
    Course s (phases ++ phases') (StopsAfter s) world outcome (taken ++ taken') where
  guarded := Surroundings.guarded_append.mpr ⟨h.guarded, h'.guarded⟩
  bracketed := by
    obtain ⟨done, -, hevents, hdone⟩ := h.bracketed
    obtain rfl := hdone rfl
    obtain ⟨done', hprefix', hevents', hdone'⟩ := h'.bracketed
    refine ⟨done ++ done', (List.prefix_append_right_inj done).mpr hprefix', ?_, fun hok => ?_⟩
    · rw [List.filterMap_append]
      exact hevents.append hevents'
    · rw [hdone' hok]
  explained e he := (h'.explained e he).append

/-- Nothing comes after a run that has failed. -/
theorem of_error {e : Error} (h : Course s phases why world (.error e : Except Error α) taken) :
    Course s (phases ++ phases') why world (.error e : Except Error β) taken where
  guarded := h.guarded
  bracketed := by
    obtain ⟨done, hprefix, hevents, -⟩ := h.bracketed
    exact ⟨done, hprefix.trans (List.prefix_append _ _), hevents,
      fun hok => absurd hok Bool.false_ne_true⟩
  explained e he := h.explained e (congrArg _ (Except.error.inj he))

theorem mono {outcome : Except Error α} (h : Course s phases why world outcome taken)
    (hwhy : ∀ e, why world taken e → why' world taken e) :
    Course s phases why' world outcome taken where
  guarded := h.guarded
  bracketed := h.bracketed
  explained e he := hwhy e (h.explained e he)

end Course

/-- Going through a phase and then, when only checks can stop the run, through others. -/
theorem behaves_bind_course {x : Run σ α} {f : α → Run σ β} {p : Phase}
    (hx : Behaves s x (Course s [p] (StopsAtOnce s)))
    (hf : ∀ a, Behaves s (f a) (Course s phases (StopsAfter s))) :
    Behaves s (x >>= f) (Course s (p :: phases) (StopsAfter s)) :=
  behaves_bind hx hf (fun _ _ _ h => h.of_error.mono fun _ => StopsAtOnce.stopsAfter)
    fun _ _ _ _ _ h h' => h.append h'

/-- A phase whose body takes no step. -/
theorem behaves_phase {p : Phase} {body : Run σ α}
    (hbody : ∀ session, ∃ a, Returns body session a session) :
    Behaves s (phase s p body) (Course s [p] (StopsAtOnce s)) := by
  refine behaves_start (Q := fun _ outcome taken =>
    outcome.isOk = true ∧ taken = [.reported (.completed p)]) (.reported (.started p))
    (fun _ _ hstops => .of_nothing ⟨rfl, hstops⟩) ?_ ?_
  · intro session
    obtain ⟨a, ha⟩ := hbody session
    have hnothing : Ends s body session (.ok a) [] := ha
    exact ⟨.ok a, [_], ends_finally hnothing _, rfl, rfl⟩
  · rintro world outcome _ hcontinues ⟨hok, rfl⟩
    exact
      { guarded := ⟨fun _ => hcontinues, nofun, trivial⟩
        bracketed := ⟨[p], List.prefix_rfl, .single p, fun _ => rfl⟩
        explained := by rintro e rfl; exact absurd hok Bool.false_ne_true }

theorem finally_bind_map {γ : Type} (body : Run σ α) (step : Step) (f : α → β) (k : β → Run σ γ) :
    ((ExceptT.mk do let result ← body.run; record s step; return result : Run σ α) >>=
        fun a => k (f a)) =
      (ExceptT.mk do
        let result ← (do return f (← body) : Run σ β).run; record s step; return result :
        Run σ β) >>= k := by
  refine ExceptT.ext ?_
  simp only [ExceptT.run_bind, ExceptT.run_mk, bind_assoc, ExceptT.run_pure, pure_bind]
  refine congrArg (body.run >>= ·) (funext fun result => ?_)
  cases result <;> simp

/-- What is made of the outcome of a phase may as well be made in it. -/
theorem phase_bind_map {γ : Type} (p : Phase) (body : Run σ α) (f : α → β) (k : β → Run σ γ) :
    (phase s p body >>= fun a => k (f a)) = phase s p (do return f (← body)) >>= k := by
  have hstart : ∀ {δ ε : Type} (rest : Run σ δ) (k : δ → Run σ ε),
      (do check s; report s (.started p); rest) >>= k =
        (do check s; report s (.started p); rest >>= k) := fun rest k => by
    rw [bind_assoc]
    exact congrArg (check s >>= ·) (funext fun _ => bind_assoc ..)
  unfold phase
  rw [hstart, hstart, finally_bind_map]

/-! ### Phases that may stay open -/

section OpenPhase

variable {p : Phase} {body : Run σ α} {session : Session σ} (hcontinues : s.Continues session.world)

include hcontinues

theorem ends_openPhase {a : α}
    (hbody : Ends s body (session.take s (.reported (.started p))) (.ok a) taken) :
    Ends s (openPhase s p body) session (.ok a)
      (.reported (.started p) :: (taken ++ [.reported (.completed p)])) := by
  refine ends_bind_of_returns (check_eq_pure hcontinues.1 hcontinues.2) (ends_bind_record ?_)
  exact ends_bind hbody (ends_bind_record rfl)

/-- If the body fails, the end of the phase is not reported. -/
theorem ends_openPhase_error {e : Error}
    (hbody : Ends s body (session.take s (.reported (.started p))) (.error e) taken) :
    Ends s (openPhase s p body) session (.error e) (.reported (.started p) :: taken) :=
  ends_bind_of_returns (check_eq_pure hcontinues.1 hcontinues.2)
    (ends_bind_record (ends_bind_error hbody))

end OpenPhase

end Run

end DepGraph

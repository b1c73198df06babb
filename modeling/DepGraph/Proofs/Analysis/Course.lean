import DepGraph.Proofs.Analysis.Phases
import DepGraph.Proofs.Build.Course
import DepGraph.Proofs.Build.Meaning

/-!
# The course of an analysis

Every analysis goes through the phases in their order, as far as it comes. The build is the only
phase that can fail; it may also be left open, if all files are read beforehand.

- `behaves_phase_build`: the phase in which a graph is built, and `Build.Refused`: why it fails.
- `Analyzer.Hindered`: why an analysis fails that nobody interrupts.
- `Analyzer.StoppedBy`: which check stops an analysis, and with which error.
- `Analyzer.exists_course_analyze`: the course of an analysis.
- `Analyzer.interruption_heeded`: an interruption is never overtaken.
- `Analyzer.BreaksOff`, `Analyzer.phases_bracketed`: the events of an analysis are well bracketed,
  unless all files are read beforehand and the build fails.
-/

namespace DepGraph

open Run

variable {σ α β : Type} {s : Surroundings σ}

/-! ## The build -/

/-- The events of a build that was started and completed. -/
theorem bracketed_build {inner : List Step}
    (hinner : ∀ event ∈ inner.filterMap Step.event?, event.isOfFiles = true) :
    Bracketed [.build] ((.reported (.started .build) ::
      (inner ++ [.reported (.completed .build)])).filterMap Step.event?) := by
  have hevents : (Step.reported (.started .build) ::
      (inner ++ [.reported (.completed .build)])).filterMap Step.event? =
      .started .build :: (inner.filterMap Step.event? ++ [.completed .build]) := by
    simp [Step.event?]
  rw [hevents]
  exact .cons (fun event hevent => ⟨rfl, hinner event hevent⟩) .nil

/-- What is done by a run that builds a graph, unless something hinders it at once. -/
def Build.Attempt (s : Surroundings σ) (hindrance : σ → Error → Prop) (world : σ)
    (outcome : Except Error α) (taken : List Step) : Prop :=
  (∃ e, hindrance world e ∧ outcome = .error e ∧ taken = []) ∨ Build.Underway s world outcome taken

/-- Why the phase in which a graph is built fails: a check stopped it before it was started, what is
done in it was hindered at once, or the last check there stopped that. Then nothing comes but the
report that the phase is over. -/
def Build.Refused (s : Surroundings σ) (hindrance : σ → Error → Prop) (world : σ)
    (taken : List Step) (e : Error) : Prop :=
  StopsAtOnce s world taken e ∨ hindrance (s.advance (.reported (.started .build)) world) e ∨
    ∃ before, taken = before ++ [.reported (.completed .build)] ∧ StopsAfter s world before e

/-- The phase in which a graph is built is completed even if the build fails. -/
theorem behaves_phase_build {body : Run σ α} {hindrance : σ → Error → Prop}
    (hbody : Behaves s body (Build.Attempt s hindrance)) :
    Behaves s (phase s .build body) (Course s [.build] (Build.Refused s hindrance)) := by
  refine behaves_start (Q := fun world outcome taken => ∃ inner,
    Build.Attempt s hindrance world outcome inner ∧ taken = inner ++ [.reported (.completed .build)])
    (.reported (.started .build)) (fun _ _ hstops => .of_nothing (.inl ⟨rfl, hstops⟩)) ?_ ?_
  · intro session
    obtain ⟨outcome, inner, hends, hattempt⟩ := hbody session
    exact ⟨outcome, _, ends_finally hends _, inner, hattempt, rfl⟩
  · rintro world outcome _ hcontinues ⟨inner, ⟨e, he, rfl, rfl⟩ | hunderway, rfl⟩
    · exact
        { guarded := ⟨fun _ => hcontinues, nofun, trivial⟩
          bracketed := ⟨[.build], List.prefix_rfl, bracketed_build nofun, fun _ => rfl⟩
          explained := by rintro _ ⟨⟩; exact .inr (.inl he) }
    · refine
        { guarded := ⟨fun _ => hcontinues, Surroundings.guarded_append.mpr
            ⟨hunderway.guarded, nofun, trivial⟩⟩
          bracketed := ⟨[.build], List.prefix_rfl, bracketed_build hunderway.isOfFiles,
            fun _ => rfl⟩
          explained := fun e he => ?_ }
      exact .inr (.inr ⟨.reported (.started .build) :: inner, rfl, hunderway.stopped e he⟩)

theorem Build.behaves_attempt_bind_pure {x : Run σ α} {f : α → β} {hindrance : σ → Error → Prop}
    (hx : Behaves s x (Attempt s hindrance)) :
    Behaves s (do return f (← x)) (Attempt s hindrance) := by
  refine behaves_bind (Q := fun a _ outcome taken => outcome = .ok (f a) ∧ taken = []) hx
    (fun a => behaves_pure fun _ => ⟨rfl, rfl⟩) ?_ ?_
  · rintro world e taken (⟨e', he, heq, rfl⟩ | hunderway)
    · exact .inl ⟨e', he, congrArg _ (Except.error.inj heq), rfl⟩
    · exact .inr hunderway.of_error
  · rintro world a taken _ _ (⟨_, -, heq, -⟩ | hunderway) ⟨rfl, rfl⟩
    · cases heq
    · exact .inr (.append hunderway.guarded hunderway.isOfFiles (.nil _))

/-! ## The whole analysis -/

namespace Analyzer

/-- A build is worked through phase by phase, and only a check can stop this. -/
theorem behaves_finish (a : Analyzer) (b : Build) :
    Behaves s (a.finish s b) (Course s
      [.annotate, .cycles, .criticalPath, .vulnerabilities, .optimizations, .stats]
      (StopsAfter s)) := by
  have hpure : ∀ {γ : Type} (x : γ) (session : Session σ),
      ∃ x', Returns (pure x : Run σ γ) session x' session :=
    fun x session => ⟨x, returns_pure_iff.mpr ⟨rfl, rfl⟩⟩
  unfold finish
  refine behaves_bind_course (behaves_phase (hpure _)) fun _ => ?_
  refine behaves_bind_course (behaves_phase (hpure _)) fun _ => ?_
  refine behaves_bind_course (behaves_phase (hpure _)) fun _ => ?_
  refine behaves_bind_course (behaves_phase fun session => ?_) fun _ => ?_
  · exact ⟨_, returns_bind_iff.mpr ⟨_, session, returns_now_iff.mpr ⟨rfl, rfl⟩,
      returns_pure_iff.mpr ⟨rfl, rfl⟩⟩⟩
  refine behaves_bind_course (behaves_phase (hpure _)) fun _ => ?_
  refine behaves_bind_course (behaves_phase (hpure _)) fun _ => ?_
  exact behaves_bind_now fun _ => behaves_pure fun _ => .nil _

end Analyzer

/-- The directory whose sources are analyzed, if there is one. -/
def Subject.root? : Subject → Option WrittenPath
  | .manifest _ => none
  | .directory root | .project root _ => some root

namespace Analyzer

variable {a : Analyzer}

/-- Why the source files of a subject cannot be found. -/
def Undiscovered (a : Analyzer) (s : Surroundings σ) (subject : Subject) (world : σ) (e : Error) :
    Prop :=
  ∃ root, subject.root? = some root ∧
    Build.discovery a.configuration (s.files world) root = .error e

/-- Why an analysis fails even if nobody interrupts it: its configuration is not valid, or the
source files cannot be found when the build has been started. -/
def Hindered (a : Analyzer) (s : Surroundings σ) (subject : Subject) (world : σ) (e : Error) :
    Prop :=
  a.configuration.check = .error e ∨
    a.Undiscovered s subject (s.advance (.reported (.started .build)) world) e

theorem ends_checkConfiguration {session : Session σ} {checked : Except Error Unit}
    (h : a.configuration.check = checked) : Ends s a.checkConfiguration session checked [] :=
  h ▸ ends_ofExcept _

/-- An analysis checks its configuration, builds a graph and works through it. -/
theorem analyze_eq (a : Analyzer) (subject : Subject) : a.analyze s subject =
    (do a.checkConfiguration; let b ← a.build s subject; a.finish s b) := by
  cases subject with
  | manifest m =>
    refine congrArg (a.checkConfiguration >>= ·) (funext fun _ => ?_)
    refine (phase_bind_map .build _ (fun graph : Graph => ({ graph } : Build)) (a.finish s)).trans ?_
    rw [bind_assoc]
    rfl
  | directory root => rfl
  | project root m => rfl

/-- The phase in which the graph of a subject is built. -/
theorem behaves_build (a : Analyzer) (subject : Subject) :
    Behaves s (a.build s subject)
      (Course s [.build] (Build.Refused s (a.Undiscovered s subject))) := by
  have hundiscovered : ∀ {γ : Type} {root : WrittenPath} {world : σ} {outcome : Except Error γ}
      {taken : List Step}, subject.root? = some root →
      Build.Attempt s (fun world e => Build.discovery a.configuration (s.files world) root =
        .error e) world outcome taken →
      Build.Attempt s (a.Undiscovered s subject) world outcome taken :=
    fun hroot => Or.imp_left fun ⟨e, he, h⟩ => ⟨e, ⟨_, hroot, he⟩, h⟩
  cases subject with
  | manifest m =>
    refine behaves_mono (behaves_phase fun session => ?_) fun _ _ _ h => h.mono fun _ => .inl
    exact ⟨_, returns_bind_iff.mpr ⟨_, session, returns_now_iff.mpr ⟨rfl, rfl⟩,
      returns_pure_iff.mpr ⟨rfl, rfl⟩⟩⟩
  | directory root =>
    refine behaves_phase_build (behaves_mono ?_ fun _ _ _ => hundiscovered rfl)
    exact Build.behaves_ofDirectory a.configuration a.tools .inTurn root
  | project root m =>
    refine behaves_phase_build (behaves_mono ?_ fun _ _ _ => hundiscovered rfl)
    refine behaves_bind_now fun now => ?_
    exact Build.behaves_attempt_bind_pure
      (Build.behaves_ofDirectory a.configuration (a.projectTools m) .inTurn root)

/-- A check stopped the analysis with the error. If a graph was built, that was the check after all
other steps. If none was, the check was made before the build was started, or it was the last one of
the build, and nothing but the end of the build was reported afterwards. -/
def StoppedBy (a : Analyzer) (s : Surroundings σ) (subject : Subject) (session : Session σ)
    (taken : List Step) (e : Error) : Prop :=
  (∃ b built, Ends s (a.build s subject) session (.ok b) built ∧
    StopsAfter s session.world taken e) ∨
  Ends s (a.build s subject) session (.error e) taken ∧
    (StopsAtOnce s session.world taken e ∨
      ∃ before, taken = before ++ [.reported (.completed .build)] ∧
        StopsAfter s session.world before e)

/-- An analysis goes through all phases, as far as it comes. -/
theorem exists_course_analyze (a : Analyzer) (s : Surroundings σ) (subject : Subject)
    (session : Session σ) :
    ∃ outcome taken, Ends s (a.analyze s subject) session outcome taken ∧
      Course s Phase.all (fun world taken e =>
        a.Hindered s subject world e ∨ a.StoppedBy s subject session taken e) session.world
        outcome taken := by
  rw [analyze_eq]
  cases hcheck : a.configuration.check with
  | error e =>
    exact ⟨.error e, [], ends_bind_error (ends_checkConfiguration hcheck),
      .of_nothing (.inl (.inl hcheck))⟩
  | ok =>
    have hchecked : Ends s a.checkConfiguration session (.ok ()) [] := ends_checkConfiguration hcheck
    obtain ⟨outcome, built, hbuild, hbuilt⟩ := a.behaves_build (s := s) subject session
    cases outcome with
    | error e =>
      refine ⟨.error e, _, ends_bind hchecked (ends_bind_error hbuild), ?_⟩
      have hcourse : Course s Phase.all _ session.world (.error e : Except Error Analysis) built :=
        hbuilt.of_error
      refine
        { guarded := hcourse.guarded
          bracketed := hcourse.bracketed
          explained := ?_ }
      rintro _ ⟨⟩
      rcases hbuilt.explained e rfl with hstopped | ⟨root, hroot, he⟩ | hstopped
      · exact .inr (.inr ⟨hbuild, .inl hstopped⟩)
      · exact .inl (.inr ⟨root, hroot, he⟩)
      · exact .inr (.inr ⟨hbuild, .inr hstopped⟩)
    | ok b =>
      obtain ⟨outcome, taken, hfinish, hcourse⟩ :=
        a.behaves_finish (s := s) b (session.takeAll s built)
      rw [Session.world_takeAll] at hcourse
      refine ⟨outcome, _, ends_bind hchecked (ends_bind hbuild hfinish), ?_⟩
      exact (hbuilt.append hcourse).mono fun e hstopped => .inr (.inl ⟨b, built, hbuild, hstopped⟩)

/-! ## Interruptions -/

/-- **An interruption is never overtaken.** Split the steps that an analysis takes at a moment at
which it is interrupted: afterwards no file and no phase is started. Unless the last phase had been
started before, the analysis fails; if nothing else hinders it, then because it was cancelled when
its last check was made, or otherwise because its time was over. Whether this was a check of the
build tells whether the build has failed. -/
theorem interruption_heeded (hs : s.Lasting) (a : Analyzer) (subject : Subject)
    (session : Session σ) :
    ∃ outcome taken, Ends s (a.analyze s subject) session outcome taken ∧
      ∀ before rest, taken = before ++ rest → ¬ s.Continues (s.after session.world before) →
        (∀ step ∈ rest, step.isStart = false) ∧
        (.reported (.started .stats) ∉ before → ∃ e, outcome = .error e ∧
          (a.Hindered s subject session.world e ∨
            a.StoppedBy s subject session taken e)) := by
  obtain ⟨outcome, taken, hends, h⟩ := a.exists_course_analyze s subject session
  refine ⟨outcome, taken, hends, ?_⟩
  rintro before rest rfl hstop
  have hrest := (Surroundings.guarded_append.mp h.guarded).2.not_isStart hs hstop
  refine ⟨hrest, fun hbefore => ?_⟩
  cases outcome with
  | error e => exact ⟨e, rfl, h.explained e rfl⟩
  | ok found =>
    -- an analysis that returns has started the last phase, and not after the interruption
    obtain ⟨done, -, hevents, hdone⟩ := h.bracketed
    have hstats : Event.started .stats ∈ (before ++ rest).filterMap Step.event? :=
      hevents.started_mem .stats (hdone rfl ▸ by decide)
    obtain ⟨step, hmem, hstep⟩ := List.mem_filterMap.mp hstats
    obtain rfl : step = .reported (.started .stats) := by
      cases step <;> simp_all [Step.event?]
    rcases List.mem_append.mp hmem with hmem | hmem
    · exact absurd hmem hbefore
    · exact absurd (hrest _ hmem) (by decide)

/-- Surroundings in which a run is cancelled after so many steps. -/
def cancelledAfter (files : FileSystem) (count : Nat) : Surroundings Nat where
  files _ := files
  isCancelled taken := decide (count ≤ taken)
  isExpired _ := false
  now _ := default
  advance _ taken := taken + 1

theorem lasting_cancelledAfter (files : FileSystem) (count : Nat) :
    (cancelledAfter files count).Lasting where
  isCancelled_advance _ _ h := decide_eq_true (Nat.le_succ_of_le (of_decide_eq_true h))
  isExpired_advance _ _ h := absurd h Bool.false_ne_true

/-- A run over three files is cancelled when they have been found. None of them is started. -/
theorem interruption_heeded_found :
    let s := cancelledAfter Build.mutualImports 2
    s.Lasting ∧ ∃ taken, Ends s (({} : Analyzer).analyze s (.directory "/")) ⟨0, #[]⟩
        (.error .cancelled) taken ∧
      taken = [.reported (.started .build), .reported (.discovered 3),
        .reported (.completed .build)] := by
  intro s
  have hlasting : s.Lasting := lasting_cancelledAfter _ _
  obtain ⟨outcome, taken, hends, h⟩ := interruption_heeded hlasting {} (.directory "/") ⟨0, #[]⟩
  have hsteps : taken = [.reported (.started .build), .reported (.discovered 3),
      .reported (.completed .build)] := by
    rw [← hends.toList_steps]
    decide +kernel
  subst hsteps
  have hstop : ¬ s.Continues (s.after 0
      [.reported (.started .build), .reported (.discovered 3)]) := fun h => nomatch h.1
  obtain ⟨e, rfl, ⟨hcheck | ⟨_, ⟨⟩, hsources⟩⟩ | hstopped⟩ := (h [_, _] [_] rfl hstop).2 (by decide)
  · have hvalid : ({} : Configuration).check = .ok () := by decide +kernel
    exact nomatch hvalid.symm.trans hcheck
  · have hfound : (Build.discovery {} Build.mutualImports "/").isOk = true := by decide +kernel
    have hlost := congrArg Except.isOk hsources
    exact nomatch hfound.symm.trans hlost
  · -- no graph was built, so the last check was made before the end of the build was reported
    rcases hstopped with ⟨b, built, hbuild, -⟩ | ⟨-, ⟨hnothing, -⟩ | ⟨before, heq, -, rfl⟩⟩
    · have hfails : ((({} : Analyzer).build s (.directory "/")).run.run ⟨0, #[]⟩).1.isOk =
          false := by
        decide +kernel
      rw [hbuild] at hfails
      exact Bool.noConfusion hfails
    · exact absurd hnothing (List.cons_ne_nil _ _)
    · obtain ⟨rfl, -⟩ := List.append_inj' (show [_, _] ++ [_] = before ++ [_] from heq) rfl
      exact ⟨hlasting, _, hends, rfl⟩

/-! ## Brackets -/

/-- An analysis that reads all files beforehand fails in the middle of its build. -/
def BreaksOff (a : Analyzer) (order : Nat → List Nat) (s : Surroundings σ) (root : WrittenPath)
    (session : Session σ) : Prop :=
  a.configuration.check = .ok () ∧ s.Continues session.world ∧ ∃ e taken,
    Ends s (Build.ofDirectory a.configuration a.tools (.beforehand order) s root)
      (session.take s (.reported (.started .build))) (.error e) taken

/-- When a build has been completed, the other phases follow. -/
theorem bracketed_finish (a : Analyzer) (b : Build) {built : List Step}
    (hbuilt : Bracketed [.build] (built.filterMap Step.event?)) (session : Session σ) :
    ∃ outcome taken, Ends s (a.finish s b) session outcome taken ∧
      WellBracketed ((built ++ taken).filterMap Step.event?) ∧
      (outcome.isOk = true → Bracketed Phase.all ((built ++ taken).filterMap Step.event?)) := by
  obtain ⟨outcome, taken, hends, hcourse⟩ := a.behaves_finish (s := s) b session
  obtain ⟨done, hprefix, hevents, hdone⟩ := hcourse.bracketed
  have hbracketed : Bracketed (.build :: done) ((built ++ taken).filterMap Step.event?) := by
    rw [List.filterMap_append]
    exact hbuilt.append hevents
  refine ⟨outcome, taken, hends, ⟨_, (List.prefix_cons_inj Phase.build).mpr hprefix, hbracketed⟩, ?_⟩
  intro hok
  rwa [hdone hok] at hbracketed

/-- An analysis that reads all files beforehand goes through the first phases as the others do, or
it breaks off. Then the build was started, and nothing but files was reported afterwards. -/
theorem bracketed_or_breaksOff (a : Analyzer) (order : Nat → List Nat) (root : WrittenPath)
    (session : Session σ) :
    ∃ outcome taken, Ends s (a.analyzeDirectoryReading order s root) session outcome taken ∧
      (outcome.isOk = true → Bracketed Phase.all (taken.filterMap Step.event?)) ∧
      (WellBracketed (taken.filterMap Step.event?) ∧ ¬ a.BreaksOff order s root session ∨
        a.BreaksOff order s root session ∧ outcome.isOk = false ∧
          ∃ inner, taken.filterMap Step.event? = .started .build :: inner ∧
            ∀ event ∈ inner, event.isOfFiles = true) := by
  have hnothing : WellBracketed [] := ⟨[], List.nil_prefix, .nil⟩
  cases hcheck : a.configuration.check with
  | error e =>
    refine ⟨.error e, [], ends_bind_error (ends_checkConfiguration hcheck), nofun,
      .inl ⟨hnothing, fun h => ?_⟩⟩
    exact nomatch hcheck.symm.trans h.1
  | ok =>
    have hchecked : Ends s a.checkConfiguration session (.ok ()) [] := ends_checkConfiguration hcheck
    by_cases hcontinues : s.Continues session.world
    · obtain ⟨outcome, inner, hbody, h⟩ := Build.behaves_ofDirectory (s := s) a.configuration
        a.tools (.beforehand order) root (session.take s (.reported (.started .build)))
      have hfiles : ∀ event ∈ inner.filterMap Step.event?, event.isOfFiles = true := by
        rcases h with ⟨_, -, -, rfl⟩ | hunderway
        · exact nofun
        · exact hunderway.isOfFiles
      cases outcome with
      | error e =>
        exact ⟨.error e, _, ends_bind hchecked (ends_bind_error
          (ends_openPhase_error hcontinues hbody)), nofun,
          .inr ⟨⟨hcheck, hcontinues, e, inner, hbody⟩, rfl, _, rfl, hfiles⟩⟩
      | ok b =>
        obtain ⟨outcome, taken, hfinish, hbracketed, hall⟩ := a.bracketed_finish b
          (bracketed_build hfiles) (session.takeAll s (.reported (.started .build) ::
            (inner ++ [.reported (.completed .build)])))
        refine ⟨outcome, _, ends_bind hchecked
          (ends_bind (ends_openPhase hcontinues hbody) hfinish), hall, .inl ⟨hbracketed, ?_⟩⟩
        rintro ⟨-, -, e, _, hbroken⟩
        exact nomatch congrArg Prod.fst (hbody.symm.trans hbroken)
    · have hphase : Ends s (openPhase s .build (Build.ofDirectory a.configuration a.tools
          (.beforehand order) s root)) session _ [] :=
        ends_bind_error (ends_check_of_stops ⟨hcontinues, rfl⟩)
      exact ⟨_, [], ends_bind hchecked (ends_bind_error hphase), nofun,
        .inl ⟨hnothing, fun h => hcontinues h.2.1⟩⟩

/-- **Phases are bracketed.** However an analysis ends, it has gone through the first phases, one
after the other, each of which was started and completed, and has reported files only while the
graph was built; if it returns, it has gone through all of them. If all files are read beforehand,
this holds exactly if the analysis does not break off: a build that fails then is started and never
completed. -/
theorem phases_bracketed (a : Analyzer) (s : Surroundings σ) (session : Session σ) :
    (∀ subject, ∃ outcome taken, Ends s (a.analyze s subject) session outcome taken ∧
      WellBracketed (taken.filterMap Step.event?) ∧
      (outcome.isOk = true → Bracketed Phase.all (taken.filterMap Step.event?))) ∧
    ∀ order root, ∃ outcome taken,
      Ends s (a.analyzeDirectoryReading order s root) session outcome taken ∧
      (outcome.isOk = true → Bracketed Phase.all (taken.filterMap Step.event?)) ∧
      (WellBracketed (taken.filterMap Step.event?) ↔ ¬ a.BreaksOff order s root session) ∧
      (a.BreaksOff order s root session → outcome.isOk = false ∧
        ∃ inner, taken.filterMap Step.event? = .started .build :: inner ∧
          ∀ event ∈ inner, event.isOfFiles = true) := by
  constructor
  · intro subject
    obtain ⟨outcome, taken, hends, h⟩ := a.exists_course_analyze s subject session
    obtain ⟨done, hprefix, hevents, hdone⟩ := h.bracketed
    exact ⟨outcome, taken, hends, ⟨done, hprefix, hevents⟩, fun hok => hdone hok ▸ hevents⟩
  · intro order root
    obtain ⟨outcome, taken, hends, hall,
        ⟨hbracketed, hnot⟩ | ⟨hbroken, hfails, inner, hevents, hfiles⟩⟩ :=
      a.bracketed_or_breaksOff (s := s) order root session
    · exact ⟨outcome, taken, hends, hall, iff_of_true hbracketed hnot, fun h => absurd h hnot⟩
    · refine ⟨outcome, taken, hends, hall, iff_of_false ?_ (not_not.mpr hbroken),
        fun _ => ⟨hfails, inner, hevents, hfiles⟩⟩
      rw [hevents]
      exact not_wellBracketed_of_open hfiles

/-- Where there is no directory, the build is started and never completed. -/
theorem unbracketed_missing : ∃ e taken,
    Ends (.still {}) (({} : Analyzer).analyzeDirectoryReading List.range (.still {}) "/missing")
      ⟨(), #[]⟩ (.error e) taken ∧
    taken = [.reported (.started .build)] ∧ ¬ WellBracketed (taken.filterMap Step.event?) := by
  have hvalid : ({} : Configuration).check = .ok () := by decide +kernel
  have hbody : Ends (.still {}) (Build.ofDirectory {} {} (.beforehand List.range) (.still {})
      "/missing") ⟨(), #[.reported (.started .build)]⟩ (.error (Build.rootMissing "/missing")) [] :=
    rfl
  exact ⟨_, _, ends_bind (ends_checkConfiguration hvalid)
    (ends_bind_error (ends_openPhase_error ⟨rfl, rfl⟩ hbody)), rfl, not_wellBracketed_of_open nofun⟩

end Analyzer

end DepGraph

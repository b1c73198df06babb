import DepGraph.Source.Script.Grammar.Markup
import DepGraph.Source.Script.Grammar.Statement

/-!
# Reading a script

The reader keeps the goals that are still to be reached, the nearest first. It takes the first way
to reach the nearest goal and remembers the others; where a way fails, the way remembered last is
taken instead, with the outline as it was drawn up to there. Nothing is kept on a stack of calls, so
a script may be nested as deep as it likes.

* `Reader.choices_commit_le`: a commitment leaves no more choices than it names.
* `Reader.step?_of_finished`: a reader without goals has come to its end.
* `Reader.run_add`: a reader that has come to its end stays there, whatever its fuel.
-/

namespace DepGraph.Script

/-- A point in reading: what is left of the text, what is still to be reached, what has been drawn,
and whether semicolons may be missing. -/
structure ReadPoint where
  cursor : Cursor
  goals : List Goal
  draft : Draft := .empty
  forgiving : Bool := false

/-- Is less of the text left at the first point than at the second? -/
def ReadPoint.isPast (p q : ReadPoint) : Bool :=
  p.cursor.rest.length < q.cursor.rest.length

/-- The ways to reach a goal of the grammar. -/
def Goal.ways (dialect : Dialect) (forgiving : Bool) (choices : Nat) (c : Cursor) :
    Goal → List Way
  | .draw _ | .commit _ | .forgive _ | .recover => c.stay
  | .mark text => let t := c.read; t.expect (t.isMark text) []
  | .word text => let t := c.read; t.expect (t.isWord text) []
  | .expression goal => expressionWays dialect choices c goal
  | .type goal => typeWays dialect choices c goal
  | .member goal => memberWays dialect choices c goal
  | .statement goal => statementWays dialect forgiving choices c goal
  | .markup goal => markupWays dialect c goal

/-- A reader: where it is, the points from which it could go on otherwise, the last one first, with
their number, and the furthest point where a forgiving way failed. -/
structure Reader where
  here : ReadPoint
  remembered : List ReadPoint := []
  choices : Nat := 0
  furthest : Option ReadPoint := none

namespace Reader

/-- Goes on with other goals. -/
def turnTo (r : Reader) (goals : List Goal) : Reader :=
  { r with here := { r.here with goals } }

/-- Forgets the choices beyond so many. -/
def commit (r : Reader) (choices : Nat) : Reader :=
  { r with
    remembered := r.remembered.drop (r.choices - choices)
    choices := min r.choices choices }

/-- Notes that the nearest goal cannot be reached from here. -/
def noteFailure (r : Reader) : Reader :=
  if r.here.forgiving && r.furthest.all r.here.isPast then { r with furthest := some r.here }
  else r

/-- Goes on from the point remembered last, if there is one. -/
def retreat? (r : Reader) : Option Reader :=
  match r.remembered with
  | [] => none
  | point :: rest => some { r with here := point, remembered := rest, choices := r.choices - 1 }

/-- Goes on from the furthest point where reading failed, or from here if that is further. What had
been found there is kept. -/
def recover (r : Reader) (goals : List Goal) : Reader :=
  let point := match r.furthest with
    | some p => if r.here.isPast p then r.here else p
    | none => r.here
  { r with
    here := { point with goals, draft := point.draft.abandon, forgiving := false }
    furthest := none }

/-- Takes the first of the ways to the nearest goal, and remembers the others. -/
def take (r : Reader) (later : List Goal) (way : Way) (others : List Way) : Reader :=
  let point (w : Way) : ReadPoint := { r.here with cursor := w.cursor, goals := w.goals ++ later }
  { r with
    here := point way
    remembered := others.map point ++ r.remembered
    choices := r.choices + others.length }

/-- One step: draws, commits, or takes a way to the nearest goal. None when every goal has been
reached or none can be. -/
def step? (dialect : Dialect) (r : Reader) : Option Reader :=
  match r.here.goals with
  | [] => none
  | .draw stroke :: later =>
    some { r with here := { r.here with goals := later, draft := r.here.draft.draw stroke } }
  | .commit choices :: later => some ((r.turnTo later).commit choices)
  | .forgive forgiving :: later => some { r with here := { r.here with goals := later, forgiving } }
  | .recover :: later => some (r.recover later)
  | goal :: later =>
    match goal.ways dialect r.here.forgiving r.choices r.here.cursor with
    | [] => r.noteFailure.retreat?
    | way :: others => some (r.take later way others)

/-- Reads on for so many steps at most. -/
def run (dialect : Dialect) : Nat → Reader → Reader
  | 0, r => r
  | fuel + 1, r =>
    match r.step? dialect with
    | some next => run dialect fuel next
    | none => r

theorem run_of_ended {dialect : Dialect} {r : Reader} (h : r.step? dialect = none) (fuel : Nat) :
    run dialect fuel r = r := by
  cases fuel <;> simp [run, h]

/-- Reading on after a pause is reading without one, so more fuel keeps a finished outline. -/
theorem run_add (dialect : Dialect) (m n : Nat) (r : Reader) :
    run dialect (m + n) r = run dialect n (run dialect m r) := by
  induction m generalizing r with
  | zero => simp [run]
  | succ m ih =>
    rw [Nat.add_right_comm]
    simp only [run]
    split
    · exact ih _
    · next h => exact (run_of_ended h n).symm

theorem choices_commit_le (r : Reader) (choices : Nat) : (r.commit choices).choices ≤ choices :=
  Nat.min_le_right ..

theorem step?_of_finished (dialect : Dialect) {r : Reader} (h : r.here.goals = []) :
    r.step? dialect = none := by
  simp [step?, h]

end Reader

/-- The outline of a script. The number of steps is bounded by a multiple of the length of the text,
which no script reaches unless it offers choice after choice and fails them all. -/
def outline (dialect : Dialect) (source : List Char) : Outline :=
  let start : Cursor := ⟨source, 1⟩
  let reader : Reader :=
    { here := { cursor := start.afterInterpreter, goals := [.statement .program] } }
  (reader.run dialect (1000 * (source.length + 64))).here.draft.close

end DepGraph.Script

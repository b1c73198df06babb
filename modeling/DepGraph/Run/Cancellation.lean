import DepGraph.Error

/-!
# Cancelling

A token tells a run to stop, because somebody cancelled it or because its deadline has passed.
Copies of a token are cancelled together: they form a family, and each carries the same deadline.

* `interruption?_eq_none_iff`: nothing interrupts a run that is neither cancelled nor late.
* `check_cancel`: cancelling a token stops exactly the tokens of its family.
-/

namespace DepGraph

/-- Why a run has to stop. -/
inductive Interruption where
  | cancelled
  | timedOut
  deriving Repr, DecidableEq

namespace Interruption

/-- The error with which a run stops. -/
def error : Interruption → Error
  | .cancelled => .cancelled
  | .timedOut => .timedOut

/-- What interrupts a run, if anything does. To be cancelled counts more than to be late. -/
def interruption? (cancelled expired : Bool) : Option Interruption :=
  if cancelled then some .cancelled else if expired then some .timedOut else none

theorem interruption?_eq_none_iff (cancelled expired : Bool) :
    interruption? cancelled expired = none ↔ cancelled = false ∧ expired = false := by
  cases cancelled <;> cases expired <;> simp [interruption?]

theorem interruption?_eq_cancelled_iff (cancelled expired : Bool) :
    interruption? cancelled expired = some .cancelled ↔ cancelled = true := by
  cases cancelled <;> cases expired <;> simp [interruption?]

theorem interruption?_eq_timedOut_iff (cancelled expired : Bool) :
    interruption? cancelled expired = some .timedOut ↔ cancelled = false ∧ expired = true := by
  cases cancelled <;> cases expired <;> simp [interruption?]

end Interruption

/-- A token: its family, and the reading of the clock at which it expires. -/
structure Token where
  family : Nat
  deadline : Option Nat := none
  deriving Repr, DecidableEq

/-- Tokens in the order in which they were made, and the families that were cancelled. -/
structure Tokens where
  tokens : Array Token := #[]
  families : Nat := 0
  cancelledFamilies : List Nat := []

namespace Tokens

/-! ## Making and cancelling -/

/-- Makes a token of a new family, which expires when the timeout has passed. -/
def create (s : Tokens) (now : Nat) (timeout : Option Nat) : Tokens :=
  { s with
    tokens := s.tokens.push ⟨s.families, timeout.map (now + ·)⟩
    families := s.families + 1 }

/-- Makes a copy of a token. -/
def clone (s : Tokens) (token : Nat) : Tokens :=
  match s.tokens[token]? with
  | some t => { s with tokens := s.tokens.push t }
  | none => s

/-- Cancels the family of a token. -/
def cancel (s : Tokens) (token : Nat) : Tokens :=
  match s.tokens[token]? with
  | some t => { s with cancelledFamilies := t.family :: s.cancelledFamilies }
  | none => s

/-! ## Asking -/

/-- Was the token cancelled? -/
def isCancelled (s : Tokens) (token : Nat) : Bool :=
  s.tokens[token]?.any fun t => s.cancelledFamilies.contains t.family

/-- Has the deadline of the token passed? -/
def isExpired (s : Tokens) (now token : Nat) : Bool :=
  (s.tokens[token]?.bind (·.deadline)).any (· ≤ now)

/-- What the token has to say. -/
def check (s : Tokens) (now token : Nat) : Option Interruption :=
  Interruption.interruption? (s.isCancelled token) (s.isExpired now token)

theorem isCancelled_cancel {s : Tokens} {token : Nat} {t : Token} (h : s.tokens[token]? = some t)
    (other : Nat) :
    (s.cancel token).isCancelled other =
      (s.isCancelled other || s.tokens[other]?.any (·.family == t.family)) := by
  simp only [isCancelled, cancel, h]
  cases s.tokens[other]? with
  | none => rfl
  | some u =>
    simp only [Option.any_some, List.contains_cons]
    exact Bool.or_comm ..

theorem check_cancel {s : Tokens} {token : Nat} {t : Token} (h : s.tokens[token]? = some t)
    (now other : Nat) :
    (s.cancel token).check now other =
      if s.tokens[other]?.any (·.family == t.family) then some .cancelled
      else s.check now other := by
  simp only [check, isCancelled_cancel h]
  have hexpired : (s.cancel token).isExpired now other = s.isExpired now other := by
    simp [isExpired, cancel, h]
  rw [hexpired]
  cases s.tokens[other]?.any (·.family == t.family) <;> simp [Interruption.interruption?]

end Tokens

end DepGraph

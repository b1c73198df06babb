/-!
# Faults of files

Why a file cannot be read, with the wording of the system.
-/

namespace DepGraph

/-- The kinds of faults that callers tell apart. -/
inductive FaultKind where
  | notFound
  | denied
  | other
  deriving Repr, DecidableEq

/-- A fault and its wording. -/
structure Fault where
  kind : FaultKind
  message : String
  deriving Repr, DecidableEq

namespace Fault

/-- There is no such file. -/
def missing : Fault := ⟨.notFound, "No such file or directory (os error 2)"⟩

/-- A file stands where a directory should. -/
def notADirectory : Fault := ⟨.other, "Not a directory (os error 20)"⟩

/-- A directory stands where a file should. -/
def isADirectory : Fault := ⟨.other, "Is a directory (os error 21)"⟩

/-- The bytes of the file are no text. -/
def notText : Fault := ⟨.other, "stream did not contain valid UTF-8"⟩

end Fault

end DepGraph

/-!
Failures that a caller is told about, each with its status.
-/

namespace ArchGraph

inductive FailureKind where
  | general
  | validation
  | notFound
  | conflict
  | bindingIncomplete
  | invalidTransition
  deriving DecidableEq, Repr

namespace FailureKind

def status : FailureKind → Int
  | .general => 500
  | .validation => 422
  | .notFound => 404
  | .conflict => 409
  | .bindingIncomplete => 412
  | .invalidTransition => 409

/-- What is said when nothing more is known. A general failure has to say what it is. -/
def defaultDetail? : FailureKind → Option String
  | .general => none
  | .validation => some "Validation error"
  | .notFound => some "Resource not found"
  | .conflict => some "Conflict"
  | .bindingIncomplete => some "Interface binding pass has not completed for this fact set"
  | .invalidTransition => some "Invalid run state transition"

end FailureKind

structure Failure where
  kind : FailureKind
  detail : String
  status : Int
  deriving DecidableEq, Repr

/-- A failure with the status of its kind. -/
def Failure.of (kind : FailureKind) (detail : String) : Failure := ⟨kind, detail, kind.status⟩

end ArchGraph

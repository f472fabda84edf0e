import ArchGraph.Diff
import ArchGraph.Failure

/-!
Runs: the evaluation of one proposed change. A run is pending, is analyzed, and then is completed or
failed, from which it never changes again.
-/

namespace ArchGraph

inductive RunStatus where
  | pending
  | analyzing
  | completed
  | failed
  deriving DecidableEq, Repr

instance : Coded RunStatus where
  all := [.pending, .analyzing, .completed, .failed]
  code
    | .pending => "pending"
    | .analyzing => "analyzing"
    | .completed => "completed"
    | .failed => "failed"

def RunStatus.isTerminal : RunStatus → Bool
  | .completed => true
  | .failed => true
  | _ => false

structure Run where
  id : String
  projectId : String
  branch : String
  baseBranch : String
  changeRef : Option String
  status : RunStatus
  errorMessage : Option String
  createdAt : Timestamp
  completedAt : Option Timestamp
  expiresAt : Timestamp
  diff : Option GraphDiff
  deriving Repr

/-- What a run is asked to evaluate. -/
structure RunRequest where
  branch : String
  baseBranch : String
  changeRef : Option String
  facts : FactSet
  deriving DecidableEq, Repr

/-- What moves a run on. -/
inductive Trigger where
  | start
  | finish
  | fail
  deriving DecidableEq, Repr

namespace Trigger

def word : Trigger → String
  | .start => "start"
  | .finish => "finish"
  | .fail => "fail"

/-- Where a trigger leads from a status. -/
def target? : Trigger → RunStatus → Option RunStatus
  | .start, .pending => some .analyzing
  | .finish, .analyzing => some .completed
  | .fail, .pending => some .failed
  | .fail, .analyzing => some .failed
  | _, _ => none

end Trigger

namespace Run

def invalidTransition (run : Run) (trigger : Trigger) : Failure :=
  .of .invalidTransition
    ("Cannot " ++ trigger.word ++ " candidate run " ++ run.id ++ " in state " ++
    Coded.code run.status)

/-- Enter a status. The time of completion is set when the run ends, unless it has one. -/
def enter (run : Run) (status : RunStatus) (now : Timestamp) : Run :=
  { run with
    status
    completedAt := if status.isTerminal then run.completedAt.or (some now) else run.completedAt }

/-- Move a run on after `change`, which is made only if the move is allowed. -/
def fire (trigger : Trigger) (now : Timestamp) (change : Run → Run) (run : Run) :
    Except Failure Run :=
  match trigger.target? run.status with
  | some status => .ok ((change run).enter status now)
  | none => .error (run.invalidTransition trigger)

def start (now : Timestamp) (run : Run) : Except Failure Run := run.fire .start now (fun r => r)

def finish (diff : GraphDiff) (now : Timestamp) (run : Run) : Except Failure Run :=
  run.fire .finish now (fun r => { r with diff := some diff })

def fail (message : String) (now : Timestamp) (run : Run) : Except Failure Run :=
  run.fire .fail now (fun r => { r with errorMessage := some message })

end Run

end ArchGraph

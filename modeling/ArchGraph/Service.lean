import ArchGraph.Analysis
import ArchGraph.Diff.Compare
import ArchGraph.Store

/-!
The service that evaluates proposed changes. Submitting stores a pending run and a job for it. The
job analyzes the facts, keeps the graph and compares it with the baseline; it ends in a completed
run with its diff, or in a failed one with a message and no graph.
-/

namespace ArchGraph

/-- How the service is set up. -/
structure Policy where
  threshold : Int
  lifetimeHours : Int
  walkLimit : Int
  deriving DecidableEq, Repr

/-- A part of the evaluation. -/
inductive Stage where
  | analyze
  | diff
  deriving DecidableEq, Repr

/-- What the surroundings do to the service: a stage that breaks with a message, and a graph store
that refuses to delete. Ordinarily neither. -/
structure Conditions where
  breaking : Option (Stage × String)
  locked : Bool
  deriving DecidableEq, Repr

/-- An evaluation that waits for its turn. -/
structure Job where
  runId : String
  facts : FactSet
  deriving DecidableEq, Repr

structure Service where
  policy : Policy
  runs : RunStore
  graphs : GraphStore
  clock : Timestamp
  /-- How many runs have been numbered. -/
  issued : Nat
  /-- Whether jobs wait until they are asked for. -/
  deferred : Bool
  queue : List Job
  conditions : Conditions
  deriving Repr

/-- Why the service did not do what it was asked. -/
inductive ServiceError where
  | failed (failure : Failure)
  | locked
  | duplicateRun
  | namelessGraph
  deriving DecidableEq, Repr

def ServiceError.message : ServiceError → String
  | .failed failure => failure.detail
  | .locked => "database is locked"
  | .duplicateRun => "UNIQUE constraint failed: candidate_runs.run_id"
  | .namelessGraph => "Cannot store a graph without a namespace"

namespace Service

def new (policy : Policy) (clock : Timestamp) : Service :=
  ⟨policy, .empty, .empty, clock, 0, false, [], ⟨none, false⟩⟩

def interruptedMessage : String := "Run interrupted by a service restart before it finished"

/-- Put a run into the store as it is. -/
def insertRun (s : Service) (run : Run) : Except ServiceError Service :=
  match s.runs.insert? run with
  | some runs => .ok { s with runs }
  | none => .error .duplicateRun

/-- Record a run. -/
def record (s : Service) (run : Run) : Service := { s with runs := s.runs.update run }

def saveGraph (s : Service) (projectId : Option String) (g : Graph) : Except ServiceError Service :=
  match s.graphs.save? projectId g with
  | some graphs => .ok { s with graphs }
  | none => .error .namelessGraph

/-- Delete a graph, and say whether there was one. -/
def deleteGraph (s : Service) (space : String) : Except ServiceError (Bool × Service) :=
  if s.conditions.locked then .error .locked
  else .ok (s.graphs.contains space, { s with graphs := s.graphs.erase space })

/-- Delete a graph if that is possible. -/
def dropGraph (s : Service) (space : String) : Service :=
  match s.deleteGraph space with
  | .ok (_, s) => s
  | .error _ => s

/-- The message of a broken stage, or the word for it if it broke without one. -/
def breakMessage (message : String) : String := if message = "" then "RuntimeError" else message

/-- The message of a stage that the surroundings break. -/
def broken? (s : Service) (stage : Stage) : Option String :=
  s.conditions.breaking.bind (fun b => if b.1 = stage then some (breakMessage b.2) else none)

/-- What a diff fails with when a graph holds what cannot be shown. This only counts the faults, in
place of a message that goes through them one by one. -/
def faultMessage (faults : List Fault) : String :=
  toString faults.length ++ " validation error for CycleEdge"

/-- The baseline of a project, empty if none is kept. -/
def baseline (s : Service) (projectId : String) : Graph :=
  (s.graphs.load? (baselineSpace projectId)).getD (.empty (baselineSpace projectId))

/-- Compare a kept candidate with the baseline of its project. -/
def compare (s : Service) (projectId : String) (candidate : Graph) : Except String GraphDiff :=
  match s.broken? .diff with
  | some message => .error message
  | none => ((s.baseline projectId).diff candidate s.policy.walkLimit).mapError faultMessage

/-- Analyze the facts of a started run, keep the graph and compare it. -/
def evaluate (s : Service) (run : Run) (facts : FactSet) : Except String GraphDiff × Service :=
  match s.broken? .analyze with
  | some message => (.error message, s)
  | none =>
    let candidate := facts.analyze s.policy.threshold (candidateSpace run.projectId run.id)
    match s.saveGraph (some run.projectId) candidate with
    | .ok s => (s.compare run.projectId candidate, s)
    | .error e => (.error e.message, s)

/-- End a run that has not ended with a message, and drop its graph in any case. -/
def giveUp (s : Service) (run : Run) (message : String) : Run × Service :=
  let space := candidateSpace run.projectId run.id
  match run.fail message s.clock with
  | .ok failed => (failed, (s.record failed).dropGraph space)
  | .error _ => (run, s.dropGraph space)

/-- Evaluate a stored run. -/
def evaluateRun (s : Service) (run : Run) (facts : FactSet) : Run × Service :=
  match run.start s.clock with
  | .error e => s.giveUp run e.detail
  | .ok started =>
    match (s.record started).evaluate started facts with
    | (.error message, s) => s.giveUp started message
    | (.ok diff, s) =>
      match started.finish diff s.clock with
      | .ok finished => (finished, s.record finished)
      | .error e => s.giveUp started e.detail

def unknownRun (id : String) : Failure :=
  .of .notFound ("Candidate run " ++ id ++ " not found")

def requireRun (s : Service) (id : String) : Except ServiceError Run :=
  match s.runs.get? id with
  | some run => .ok run
  | none => .error (.failed (unknownRun id))

/-- Do the job of a stored run. -/
def process (s : Service) (id : String) (facts : FactSet) :
    Except ServiceError (Run × Service) := do
  let run ← s.requireRun id
  return s.evaluateRun run facts

/-- Do a job; one whose run is gone does nothing. -/
def runJob (s : Service) (job : Job) : Service :=
  match s.process job.runId job.facts with
  | .ok (_, s) => s
  | .error _ => s

/-- Do all waiting jobs in order. -/
def drain (s : Service) : Nat × Service :=
  (s.queue.length, s.queue.foldl runJob { s with queue := [] })

/-- Eight hexadecimal digits. -/
def runId (n : Nat) : String := String.ofList (Json.hexDigits 8 n)

/-- The run that a request asks for. -/
def newRun (s : Service) (projectId : String) (request : RunRequest) : Run where
  id := runId (s.issued + 1)
  projectId := projectId
  branch := request.branch
  baseBranch := request.baseBranch
  changeRef := request.changeRef
  status := .pending
  errorMessage := none
  createdAt := s.clock
  completedAt := none
  expiresAt := s.clock.addHours s.policy.lifetimeHours
  diff := none

/-- Store a pending run and its job. Unless jobs are deferred, all that wait are done at once. The
run comes back as it was stored. -/
def submit (s : Service) (projectId : String) (request : RunRequest) :
    Except ServiceError Run × Service :=
  let run := s.newRun projectId request
  let s := { s with issued := s.issued + 1 }
  match s.insertRun run with
  | .error e => (.error e, s)
  | .ok s =>
    let s := { s with queue := s.queue ++ [⟨run.id, request.facts⟩] }
    (.ok run, if s.deferred then s else s.drain.2)

/-- The run of a project; a run of another project counts as not there. -/
def get (s : Service) (projectId id : String) : Except ServiceError Run := do
  let run ← s.requireRun id
  if run.projectId = projectId then return run
  else .error (.failed (.of .notFound
    ("Candidate run " ++ id ++ " not found in project " ++ projectId)))

def list (s : Service) (projectId : String) : List Run := s.runs.ofProject projectId

/-- Remove a run and its graph. -/
def discard (s : Service) (run : Run) : Except ServiceError Service := do
  let (_, s) ← s.deleteGraph (candidateSpace run.projectId run.id)
  return { s with runs := s.runs.erase run.id }

/-- Remove a run that has ended. -/
def delete (s : Service) (projectId id : String) : Except ServiceError Service := do
  let run ← s.get projectId id
  if run.status.isTerminal then s.discard run
  else .error (.failed (.of .conflict
    ("Candidate run " ++ id ++ " is still " ++ Coded.code run.status)))

/-- Discard runs one after the other, as far as it goes. -/
def discardAll (s : Service) : List Run → Except ServiceError Unit × Service
  | [] => (.ok (), s)
  | run :: rest =>
    match s.discard run with
    | .ok s => s.discardAll rest
    | .error e => (.error e, s)

/-- Discard the expired runs and count them. -/
def sweep (s : Service) (now : Timestamp) : Except ServiceError Nat × Service :=
  let runs := s.runs.expired now
  let (outcome, s) := s.discardAll runs
  (outcome.map (fun _ => runs.length), s)

/-- Fail one run that was left unfinished, and delete its graph. -/
def interrupt (s : Service) (run : Run) : Except ServiceError Unit × Service :=
  match run.fail interruptedMessage s.clock with
  | .error e => (.error (.failed e), s)
  | .ok failed =>
    let s := s.record failed
    match s.deleteGraph (candidateSpace run.projectId run.id) with
    | .ok (_, s) => (.ok (), s)
    | .error e => (.error e, s)

def interruptAll (s : Service) : List Run → Except ServiceError Unit × Service
  | [] => (.ok (), s)
  | run :: rest =>
    match s.interrupt run with
    | (.ok (), s) => s.interruptAll rest
    | (.error e, s) => (.error e, s)

/-- Fail every run that a service before this one left unfinished, and count them. -/
def failInterrupted (s : Service) : Except ServiceError Nat × Service :=
  let runs := s.runs.active
  let (outcome, s) := s.interruptAll runs
  (outcome.map (fun _ => runs.length), s)

/-- Stop and start again on the same stores. Waiting jobs are done before, or lost in a crash. -/
def restart (s : Service) (crash : Bool) : Service :=
  let stopped := if crash then { s with queue := [] } else s.drain.2
  ({ stopped with deferred := false }.failInterrupted).2

end Service

end ArchGraph

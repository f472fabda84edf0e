import ArchGraph.Graph.Topics
import ArchGraph.Health
import ArchGraph.Http.Request
import ArchGraph.Run.Document

/-!
The service behind addresses: health, the baseline of a project with its cycles and topics, and the
runs of a project.
-/

namespace ArchGraph.Http

/-- What an address means. -/
inductive Resource where
  | health
  | baseline (projectId : String)
  | baselineCycles (projectId : String)
  | baselineTopics (projectId : String)
  | runs (projectId : String)
  | run (projectId runId : String)
  deriving DecidableEq, Repr

/-- The resource of a path, given by its segments. A project and a run have names. -/
def Resource.ofSegments? : List String → Option Resource
  | ["", "api", "health"] => some .health
  | ["", "api", "projects", projectId, "baseline"] =>
    if projectId = "" then none else some (.baseline projectId)
  | ["", "api", "projects", projectId, "baseline", "cycles"] =>
    if projectId = "" then none else some (.baselineCycles projectId)
  | ["", "api", "projects", projectId, "baseline", "topics"] =>
    if projectId = "" then none else some (.baselineTopics projectId)
  | ["", "api", "projects", projectId, "candidates"] =>
    if projectId = "" then none else some (.runs projectId)
  | ["", "api", "projects", projectId, "candidates", runId] =>
    if projectId = "" ∨ runId = "" then none else some (.run projectId runId)
  | _ => none

def Resource.ofExactPath? (path : List Char) : Option Resource :=
  ofSegments? ((Text.splitWhere (· == '/') path).map String.ofList)

/-- A path may end with a line break that no segment takes. -/
def Resource.ofPath? (path : List Char) : Option Resource :=
  (ofExactPath? path).or
    (if path.getLast? = some '\n' then ofExactPath? path.dropLast else none)

/-- The service with the connections that its health is told by. -/
structure App where
  service : Service
  connected : Bool
  runsKnown : Bool
  deriving Repr

namespace App

def new (settings : Settings) (clock : Timestamp) : App :=
  ⟨.new settings.policy clock, true, true⟩

/-- Starting again restores the connections. -/
def restart (app : App) (crash : Bool) : App := ⟨app.service.restart crash, true, true⟩

def failure (e : ServiceError) : Response :=
  match e with
  | .failed f => .detail f.status f.detail
  | other => .detail 500 other.message

def health (app : App) : Response :=
  .json 200 (.obj (Health.observe (.ofInt 0) app.connected
    (if app.runsKnown then some app.service.runs.active.length else none)).lasting)

def wrongProject (given asked : String) : Response :=
  .detail (FailureKind.status .validation)
    ("Fact set belongs to project " ++ given ++ ", not " ++ asked)

/-- Analyze facts and keep their graph as the baseline. -/
def putBaseline (app : App) (projectId : String) (facts : FactSet) : Response × App :=
  if facts.projectId ≠ projectId then (wrongProject facts.projectId projectId, app)
  else
    let s := app.service
    let g := facts.analyze s.policy.threshold (baselineSpace projectId)
    match s.saveGraph (some projectId) g with
    | .error e => (failure e, app)
    | .ok s =>
      let app := { app with service := s }
      match g.stats, Cycle.detect g s.policy.walkLimit with
      | .ok stats, .ok cycles =>
        (.json 200 (.obj [("stats", stats.toJson), ("cycles", .ofNat cycles.length)]), app)
      | .bad found, _ => (.faults found, app)
      | _, .error found => (.faults found, app)

def noBaseline (projectId : String) : Response :=
  .detail (FailureKind.status .notFound) ("No baseline graph for project " ++ projectId)

def baselineCycles (app : App) (projectId : String) : Response :=
  match app.service.graphs.load? (baselineSpace projectId) with
  | none => noBaseline projectId
  | some g =>
    match Cycle.detect g app.service.policy.walkLimit with
    | .ok cycles => .json 200 (.arr (cycles.map (·.toJson)))
    | .error found => .faults found

def baselineTopics (app : App) (projectId : String) : Response :=
  match app.service.graphs.load? (baselineSpace projectId) with
  | none => noBaseline projectId
  | some g =>
    match g.topics with
    | .ok topics => .json 200 ((TopicReport.ofTopics topics).map TopicNode.toJson).toJson
    | .error _ => .detail 500 "Internal Server Error"

def submitRun (app : App) (projectId : String) (request : RunRequest) : Response × App :=
  if request.facts.projectId ≠ projectId then
    (wrongProject request.facts.projectId projectId, app)
  else
    let (outcome, s) := app.service.submit projectId request
    let app := { app with service := s }
    match outcome with
    | .ok run => (.json 202 run.toBriefJson, app)
    | .error e => (failure e, app)

def listRuns (app : App) (projectId : String) : Response :=
  .json 200 (.arr ((app.service.list projectId).map (·.toBriefJson)))

def getRun (app : App) (projectId runId : String) (withDiff : Bool) : Response :=
  match app.service.get projectId runId with
  | .ok run => .json 200 (if withDiff then run.toJson else run.toBriefJson)
  | .error e => failure e

def deleteRun (app : App) (projectId runId : String) : Response × App :=
  match app.service.delete projectId runId with
  | .ok s =>
    (.json 200 (.obj [("run_id", .str runId), ("deleted", .bool true)]), { app with service := s })
  | .error e => (failure e, app)

def notFound : Response := .detail 404 "Not Found"

def notAllowed : Response := .detail 405 "Method Not Allowed"

/-- An address with slashes at its end is sent to the one without. -/
def redirect : Response := .json 307 .null

/-- Act on what a request has, or tell what is wrong with it. -/
def withChecked {α : Type} (app : App) (value : Checked α) (act : α → Response × App) :
    Response × App :=
  match value with
  | .ok a => act a
  | .bad found => (.faults found, app)

/-- Answer a request for a resource. -/
def answer (app : App) (request : Request) : Resource → Response × App
  | .health => if request.method = "GET" then (app.health, app) else (notAllowed, app)
  | .baseline projectId =>
    if request.method = "POST" then
      app.withChecked (request.readBody FactSet.decodeFields) (app.putBaseline projectId)
    else (notAllowed, app)
  | .baselineCycles projectId =>
    if request.method = "GET" then (app.baselineCycles projectId, app) else (notAllowed, app)
  | .baselineTopics projectId =>
    if request.method = "GET" then (app.baselineTopics projectId, app) else (notAllowed, app)
  | .runs projectId =>
    if request.method = "GET" then (app.listRuns projectId, app)
    else if request.method = "POST" then
      app.withChecked (request.readBody RunRequest.decodeFields) (app.submitRun projectId)
    else (notAllowed, app)
  | .run projectId runId =>
    if request.method = "GET" then
      app.withChecked (request.readFlag "include_diff" false)
        (fun withDiff => (app.getRun projectId runId withDiff, app))
    else if request.method = "DELETE" then app.deleteRun projectId runId
    else (notAllowed, app)

/-- Without the slashes at the end. -/
def withoutEndSlashes (path : List Char) : List Char :=
  (path.reverse.dropWhile (· == '/')).reverse

/-- Answer at a path. -/
def route (app : App) (request : Request) (path : List Char) : Response × App :=
  match Resource.ofPath? path with
  | some resource => app.answer request resource
  | none =>
    if path.getLast? = some '/' ∧ (Resource.ofPath? (withoutEndSlashes path)).isSome then
      (redirect, app)
    else (notFound, app)

/-- Answer a request, and give its mark back. An answer to `HEAD` has no body. -/
def handle (app : App) (request : Request) : Response × App :=
  let (response, app) := app.route request (decodePath request.path)
  ({ response with
    body := if request.method = "HEAD" then .null else response.body
    traceId := request.traceId? }, app)

end App

end ArchGraph.Http

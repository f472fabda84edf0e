import ArchGraph.Node.Document
import ArchGraph.Route.Score

/-!
Matching outbound calls against the endpoints of the same project. Every candidate path of a call is
scored against every endpoint with an agreeing verb; the first of the best pairs is taken if its
score reaches the threshold.
-/

namespace ArchGraph

/-- What matching one call found. -/
structure Matching where
  resolved : Bool
  score : Int
  endpointId : Option String
  matchedPath : Option String
  targetService : Option String
  reason : Option String
  deriving DecidableEq, Repr

namespace Matching

def noPathReason : String := "URL could not be normalized"

def belowThresholdReason : String := "No endpoint scored above the acceptance threshold"

def matchedReason : String := "Matched endpoint in project graph"

/-- An endpoint beside a candidate path of a call, and how well they agree. -/
structure Pairing where
  endpoint : EndpointNode
  candidate : List Char
  score : Nat
  deriving DecidableEq, Repr

/-- The pairings of one endpoint with the candidates of a call, the whole path first. -/
def pairingsWith (verb : Option String) (path : List Char) (endpoint : EndpointNode) :
    List Pairing :=
  let endpointPath := Url.path endpoint.path.toList
  if Route.verbsAgree verb endpoint.verb && !endpointPath.isEmpty then
    (Route.candidates path).map (fun c => ⟨endpoint, c, Route.score c endpointPath⟩)
  else []

def pairings (verb : Option String) (path : List Char) (endpoints : List EndpointNode) :
    List Pairing :=
  endpoints.flatMap (pairingsWith verb path)

/-- The better of two, the earlier one when they are equal. A pairing without a score is none. -/
def better (best : Option Pairing) (p : Pairing) : Option Pairing :=
  if (best.elim 0 (·.score)) < p.score then some p else best

def best (ps : List Pairing) : Option Pairing := ps.foldl better none

/-- Match a call by its verb and address. -/
def find (threshold : Int) (verb url : Option String) (endpoints : List EndpointNode) : Matching :=
  let address := (url.getD "").toList
  let service := (Url.service? address).map String.ofList
  let path := Url.path address
  if path.isEmpty then ⟨false, 0, none, none, service, some noPathReason⟩
  else match best (pairings verb path endpoints) with
    | none => ⟨false, 0, none, none, service, some belowThresholdReason⟩
    | some p =>
      if (p.score : Int) < threshold then
        ⟨false, p.score, none, none, service, some belowThresholdReason⟩
      else
        ⟨true, p.score, some p.endpoint.id, some (String.ofList p.candidate), service,
          some matchedReason⟩

open Decoder in
def decode : Decoder Matching := record fun o =>
  Matching.mk <$> withDefault "resolved" false boolean o <*> withDefault "score" 0 integer o <*>
    optional "endpoint_id" text o <*> optional "matched_path" text o <*>
    optional "target_service" text o <*> optional "reason" text o

def toJson (m : Matching) : Json :=
  .obj [("resolved", .bool m.resolved), ("score", .int m.score),
    ("endpoint_id", .ofText? m.endpointId), ("matched_path", .ofText? m.matchedPath),
    ("target_service", .ofText? m.targetService), ("reason", .ofText? m.reason)]

end Matching

namespace ExternalCallNode

/-- A call keeps the service it has. -/
def noteService (c : ExternalCallNode) (service : Option String) : ExternalCallNode :=
  { c with targetService := c.targetService.or service }

/-- Record where a matched call leads. -/
def lead (c : ExternalCallNode) (m : Matching) (endpoint : EndpointNode) : ExternalCallNode :=
  { c with
    resolved := true
    targetEndpointId := some endpoint.id
    targetComponent := some endpoint.componentName
    targetHandler := endpoint.handlerMethodName
    reason := m.reason
    score := m.score }

/-- Match a call and record the outcome on it. A resolved call stays as it is and is not matched. -/
def resolve (threshold : Int) (endpoints : List EndpointNode) (c : ExternalCallNode) :
    Option Matching × ExternalCallNode :=
  if c.resolved then (none, c)
  else
    let m := Matching.find threshold c.verb c.url endpoints
    let noted := c.noteService m.targetService
    match m.endpointId.bind (fun id => endpoints.find? (·.id = id)) with
    | none => (some m, noted)
    | some endpoint => (some m, noted.lead m endpoint)

end ExternalCallNode

namespace ResolvedGraph

/-- The endpoints in the order of their identifiers. -/
def sortedEndpoints (g : ResolvedGraph) : List EndpointNode :=
  (Text.sorted g.endpoints.keys).filterMap g.endpoints.find?

/-- Match every outbound call against the project's own endpoints. -/
def resolveCalls (threshold : Int) (g : ResolvedGraph) : ResolvedGraph :=
  let endpoints := g.sortedEndpoints
  { g with externalCalls := g.externalCalls.map (fun c => (c.resolve threshold endpoints).2) }

end ResolvedGraph

end ArchGraph

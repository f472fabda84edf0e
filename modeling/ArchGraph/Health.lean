import ArchGraph.Settings

/-!
The state of the service as it tells it.
-/

namespace ArchGraph

structure Health where
  status : String
  serviceName : String
  version : String
  database : String
  uptime : Binary64
  details : Table String Json
  deriving Repr

namespace Health

open Decoder

def decode : Decoder Health := record fun o =>
  Health.mk <$>
    withDefault "status" "healthy"
      (textAmong "^(healthy|degraded|unhealthy)$" ["healthy", "degraded", "unhealthy"]) o <*>
    required "service_name" text o <*> required "version" text o <*>
    withDefault "database" "connected"
      (textAmong "^(connected|disconnected)$" ["connected", "disconnected"]) o <*>
    required "uptime_seconds" number o <*> withDefault "details" ∅ (dictionary any) o

/-- Everything but the time since the start. -/
def lasting (h : Health) : Entries :=
  [("status", .str h.status), ("service_name", .str h.serviceName), ("version", .str h.version),
    ("database", .str h.database), ("details", .obj h.details.entries)]

def toJson (h : Health) : Json := .obj (h.lasting ++ [("uptime_seconds", .float h.uptime)])

/-- The health of a service whose store answers or does not, and whose run store, if it can be
asked, knows of this many unfinished runs. -/
def observe (uptime : Binary64) (connected : Bool) (activeRuns : Option Nat) : Health where
  status := if connected then "healthy" else "degraded"
  serviceName := ArchGraph.serviceName
  version := ArchGraph.version
  database := if connected then "connected" else "disconnected"
  uptime := uptime
  details :=
    match connected, activeRuns with
    | true, some n => ⟨[("active_candidate_runs", .ofNat n)]⟩
    | _, _ => ∅

end Health

end ArchGraph

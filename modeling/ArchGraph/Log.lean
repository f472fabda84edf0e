import ArchGraph.Log.Format
import ArchGraph.Text

/-!
Log entries: what happened, with the request and the run it belongs to.
-/

namespace ArchGraph.Log

/-- Levels by name. -/
def levels : List (String × Int) :=
  [("NOTSET", 0), ("DEBUG", 10), ("INFO", 20), ("WARNING", 30), ("WARN", 30), ("ERROR", 40),
    ("CRITICAL", 50), ("FATAL", 50)]

def defaultLevel : Int := 20

/-- The level a name stands for in any case; an unknown name stands for the default one. -/
def levelOf (name : String) : Int := (levels.lookup (Text.upperCase name)).getD defaultLevel

/-- The name a level is written by. -/
def levelName (level : Int) : String :=
  ((levels.find? (fun e => e.2 == level)).map (·.1)).getD ("Level " ++ toString level)

structure Record where
  logger : String
  level : Int
  message : String
  arguments : List Json
  exception : Option String
  deriving Repr

/-- What an entry belongs to. -/
structure Context where
  serviceName : String
  traceId : String
  runId : String
  deriving DecidableEq, Repr

def entry (ctx : Context) (r : Record) : Except FormatFault Json := do
  let message ← format r.message r.arguments
  return .obj ([("level", .str (levelName r.level)), ("service_name", .str ctx.serviceName),
    ("logger", .str r.logger), ("trace_id", .str ctx.traceId), ("run_id", .str ctx.runId),
    ("message", .str message)] ++ r.exception.toList.map (fun text => ("exception", .str text)))

/-- The run bound at each point on the way into nested blocks and out of them again. -/
def boundRuns (binds : List String) : List String :=
  let inward := "" :: binds
  inward ++ inward.dropLast.reverse

/-- The entries of one record before, inside and after nested blocks that bind runs. -/
def entries (serviceName traceId : String) (binds : List String) (r : Record) :
    Except FormatFault (List Json) :=
  (boundRuns binds).mapM (fun runId => entry ⟨serviceName, traceId, runId⟩ r)

/-- A logger after it has been set up. -/
structure Logger where
  level : Int
  handlers : Nat
  propagates : Bool
  deriving DecidableEq, Repr

/-- One handler, and nothing passed on. -/
def setUp (level : String) : Logger := ⟨levelOf level, 1, false⟩

end ArchGraph.Log

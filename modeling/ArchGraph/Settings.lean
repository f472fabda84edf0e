import ArchGraph.Adjacency
import ArchGraph.Route.Score
import ArchGraph.Schema.Decoder
import ArchGraph.Service

/-!
How the service is set up, from arguments and from the environment. An argument wins over the
environment, where upper and lower case are the same.
-/

namespace ArchGraph

def version : String := "1.0.0"

def serviceName : String := "code-graph"

def servicePort : Nat := 8000

/-- How long a busy store is waited for, in milliseconds. -/
def busyTimeout : Nat := 30000

structure Settings where
  logLevel : String
  databasePath : String
  lifetimeHours : Int
  sweepSeconds : Int
  workers : Int
  threshold : Int
  deriving DecidableEq, Repr

namespace Settings

def defaultLifetimeHours : Int := 24

def defaultSweepSeconds : Int := 3600

def default : Settings :=
  ⟨"info", "./data/code_graph.db", defaultLifetimeHours, defaultSweepSeconds, 2,
    Route.defaultThreshold⟩

/-- Where settings come from. -/
structure Sources where
  environment : List (String × String)
  arguments : Entries
  deriving Repr

/-- The value of a setting and the name it was given under. An argument may have the name in lower
or in upper case; of several variables of one name the last counts. -/
def Sources.find? (s : Sources) (name : String) : Option (String × Json) :=
  let upper := Text.upperCase name
  ((s.arguments.lookup upper).map (fun j => (upper, j))).or <|
  ((s.arguments.lookup name).map (fun j => (name, j))).or <|
  (s.environment.reverse.find? (fun e => Text.lowerCase e.1 == name)).map
    (fun e => (upper, .str e.2))

def setting {α : Type} (s : Sources) (name : String) (fallback : α) (d : Decoder α) : Checked α :=
  match s.find? name with
  | some (given, j) => (d j).under (.field given)
  | none => .ok fallback

def read (s : Sources) : Checked Settings :=
  Settings.mk <$> setting s "log_level" default.logLevel Decoder.text <*>
    setting s "database_path" default.databasePath Decoder.text <*>
    setting s "candidate_ttl_hours" default.lifetimeHours Decoder.positiveInteger <*>
    setting s "sweep_interval_seconds" default.sweepSeconds Decoder.positiveInteger <*>
    setting s "candidate_workers" default.workers Decoder.positiveInteger <*>
    setting s "min_match_score" default.threshold Decoder.positiveInteger

def toJson (s : Settings) : Json :=
  .obj [("log_level", .str s.logLevel), ("database_path", .str s.databasePath),
    ("candidate_ttl_hours", .int s.lifetimeHours), ("sweep_interval_seconds", .int s.sweepSeconds),
    ("candidate_workers", .int s.workers), ("min_match_score", .int s.threshold)]

def policy (s : Settings) : Policy :=
  ⟨s.threshold, s.lifetimeHours, Adjacency.defaultWalkLimit⟩

end Settings

end ArchGraph

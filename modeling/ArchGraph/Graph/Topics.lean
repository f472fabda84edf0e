import ArchGraph.Graph
import ArchGraph.Json.Display

/-!
The topics of a graph, read from the attributes of its topic nodes.
-/

namespace ArchGraph.Graph

/-- Why a topic node cannot be read. -/
inductive TopicFault where
  | noName
  /-- A value that should be a list, called by its kind. -/
  | notList (kind : String)
  | badAttributes (faults : List Fault)
  deriving DecidableEq, Repr

/-- The items of a value: those of a list, the characters of a text, the keys of an object. -/
def listed : Json → Except TopicFault Json
  | .arr items => .ok (.arr items)
  | .str s => .ok (.arr (s.toList.map (fun c => .str (String.singleton c))))
  | .obj entries => .ok (.arr (entries.map (fun e => .str e.1)))
  | j => .error (.notList j.kindWord)

def listAttribute (attributes : Attributes) (name : String) : Except TopicFault (String × Json) :=
  match attributes.find? name with
  | none => .ok (name, .arr [])
  | some j => (listed j).map (fun items => (name, items))

def readTopic (id : String) (attributes : Attributes) : Except TopicFault TopicNode := do
  let name ← match attributes.find? "name" with
    | some j => Except.ok j
    | none => .error TopicFault.noName
  let scope := (attributes.find? "scope_key").getD (.str "")
  let producers ← listAttribute attributes "producers"
  let consumers ← listAttribute attributes "consumers"
  let producerDetails ← listAttribute attributes "producer_details"
  let consumerDetails ← listAttribute attributes "consumer_details"
  match TopicNode.decode (.obj [("id", .str id), ("name", name), ("scope_key", scope), producers,
      consumers, producerDetails, consumerDetails]) with
  | .ok t => .ok t
  | .bad faults => .error (.badAttributes faults)

def topics (g : Graph) : Except TopicFault (List TopicNode) :=
  (g.nodesOfType (Coded.code NodeType.topic)).mapM (fun e => readTopic e.1 e.2)

end ArchGraph.Graph

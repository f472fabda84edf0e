import ArchGraph.CallGraph.Registry
import ArchGraph.Node.Document

/-!
Linking methods to the topics they produce to and consume from. All components of a project meet on
one node per topic; a topic that lacks one side is an orphan on that side.
-/

namespace ArchGraph

namespace Topic

/-- Where a message is sent. -/
def producerDetail (component method : String) (line : Option Int) : String :=
  component ++ "." ++ method ++ line.elim "" (fun n => " (line " ++ toString n ++ ")")

/-- Where a message is taken, and in which group if there is one. -/
def consumerDetail (component method : String) (line : Option Int) (group : Option String) :
    String :=
  producerDetail component method line ++
    (Text.given? group).elim "" (fun g => " [group: " ++ g ++ "]")

/-- One topic call of a method in the graph. -/
structure Use where
  component : String
  methodName : String
  methodId : String
  call : TopicCall
  deriving DecidableEq, Repr

def usesOf (g : ResolvedGraph) (c : Component) (m : MethodFact) : List Use :=
  if g.methods.contains (m.id c) then m.topicCalls.map (fun call => ⟨c.name, m.name, m.id c, call⟩)
  else []

/-- The topic calls of the methods that are in the graph, in registration order. -/
def uses (g : ResolvedGraph) (facts : FactSet) : List Use :=
  (registrationOrder facts.components).flatMap (fun c => c.methods.flatMap (usesOf g c))

/-- A topic that nothing uses yet. -/
def fresh (scope name : String) : TopicNode := ⟨Identifier.topic name, name, scope, [], [], [], []⟩

/-- Make sure that there is a node for the topic. -/
def ensure (g : ResolvedGraph) (name : String) : ResolvedGraph :=
  { g with topics := g.topics.insertNew (Identifier.topic name) (fresh g.projectId name) }

/-- Note a use on the topic's own side. -/
def note (use : Use) (t : TopicNode) : TopicNode :=
  match use.call.direction with
  | .produce =>
    { t with
      producers := addNew t.producers use.component
      producerDetails := addNew t.producerDetails
        (producerDetail use.component use.methodName use.call.line) }
  | .consume =>
    { t with
      consumers := addNew t.consumers use.component
      consumerDetails := addNew t.consumerDetails
        (consumerDetail use.component use.methodName use.call.line use.call.consumerGroup) }

def linkKind : TopicDirection → LinkKind
  | .produce => .producesTo
  | .consume => .consumesFrom

/-- Link a method and a topic that is in the graph. -/
def connect (g : ResolvedGraph) (use : Use) : ResolvedGraph :=
  let topicId := Identifier.topic use.call.topic
  { g with
    methods := g.methods.modify use.methodId (·.link (linkKind use.call.direction) topicId)
    topics := g.topics.modify topicId (note use) }

/-- The node that keeps a use from being linked. -/
def sealedAt? (g : ResolvedGraph) (use : Use) : Option SealedError :=
  (g.methods.find? use.methodId).bind (fun m => if m.isSealed then some ⟨m.id⟩ else none)

/-- Link the uses one after the other and count them. A sealed method ends the linking; the node of
its topic stays. -/
def linkUses (g : ResolvedGraph) : List Use → Except SealedError Nat × ResolvedGraph
  | [] => (.ok 0, g)
  | use :: rest =>
    let g := ensure g use.call.topic
    match sealedAt? g use with
    | some e => (.error e, g)
    | none =>
      let (count, g) := linkUses (connect g use) rest
      (count.map (· + 1), g)

def link (g : ResolvedGraph) (facts : FactSet) : Except SealedError Nat × ResolvedGraph :=
  linkUses g (uses g facts)

end Topic

/-- The topics of a graph and its two kinds of orphans, in whatever form `α` topics are told. -/
structure TopicReport (α : Type) where
  topics : List α
  /-- Consumed and never produced. -/
  orphanProducers : List α
  /-- Produced and never consumed. -/
  orphanConsumers : List α
  deriving DecidableEq, Repr

namespace TopicReport

def map {α β : Type} (f : α → β) (r : TopicReport α) : TopicReport β :=
  ⟨r.topics.map f, r.orphanProducers.map f, r.orphanConsumers.map f⟩

def byName (topics : List TopicNode) : List TopicNode :=
  topics.mergeSort (fun a b => decide (a.name ≤ b.name))

def orphanProducersOf (topics : List TopicNode) : List TopicNode :=
  byName (topics.filter (·.lacksProducers))

def orphanConsumersOf (topics : List TopicNode) : List TopicNode :=
  byName (topics.filter (·.lacksConsumers))

def ofTopics (topics : List TopicNode) : TopicReport TopicNode :=
  ⟨byName topics, orphanProducersOf (byName topics), orphanConsumersOf (byName topics)⟩

open Decoder in
/-- In a report that comes as a document a topic may be any object. -/
def decode : Decoder (TopicReport Json) := recordOf "TopicReport" fun o =>
  let objects := list (fun j => (fun t => Json.obj t.entries) <$> dictionary any j)
  TopicReport.mk <$> withDefault "topics" [] objects o <*>
    withDefault "orphan_producers" [] objects o <*> withDefault "orphan_consumers" [] objects o

def toJson (r : TopicReport Json) : Json :=
  .obj [("topics", .arr r.topics), ("orphan_producers", .arr r.orphanProducers),
    ("orphan_consumers", .arr r.orphanConsumers)]

end TopicReport

end ArchGraph

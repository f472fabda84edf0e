import ArchGraph.Schema.Decoder
import ArchGraph.Table

/-!
Facts about the source code of a project, as an extractor found them: components with their injected
fields and methods, and in the methods the calls that are still to be resolved.
-/

namespace ArchGraph

inductive ComponentKind where
  | entryPointHandler
  | businessService
  | dataAccessor
  | messageListener
  | configuration
  deriving DecidableEq, Repr

instance : Coded ComponentKind where
  all := [.entryPointHandler, .businessService, .dataAccessor, .messageListener, .configuration]
  code
    | .entryPointHandler => "entry_point_handler"
    | .businessService => "business_service"
    | .dataAccessor => "data_accessor"
    | .messageListener => "message_listener"
    | .configuration => "configuration"

/-- How a dependency reaches its field. -/
inductive Injection where
  | byConstructor
  | byField
  | bySetter
  | unknown
  deriving DecidableEq, Repr

instance : Coded Injection where
  all := [.byConstructor, .byField, .bySetter, .unknown]
  code
    | .byConstructor => "constructor"
    | .byField => "field"
    | .bySetter => "setter"
    | .unknown => "unknown"

inductive TopicDirection where
  | produce
  | consume
  deriving DecidableEq, Repr

instance : Coded TopicDirection where
  all := [.produce, .consume]
  code
    | .produce => "produce"
    | .consume => "consume"

/-- A field that is filled from outside. `resolvedType` is the component chosen for it. -/
structure Dependency where
  fieldName : String
  declaredType : String
  resolvedType : Option String
  injection : Injection
  deriving DecidableEq, Repr

/-- A call as it is written, before it is known which method it reaches. -/
structure Invocation where
  methodName : String
  declaredSimple : Option String
  declaredQualified : Option String
  targetField : Option String
  selfCall : Bool
  line : Option Int
  deriving DecidableEq, Repr

/-- A call out of the project. -/
structure OutboundCall where
  clientKind : String
  verb : Option String
  url : Option String
  line : Option Int
  deriving DecidableEq, Repr

/-- A message sent to a topic or taken from it. -/
structure TopicCall where
  topic : String
  direction : TopicDirection
  consumerGroup : Option String
  line : Option Int
  deriving DecidableEq, Repr

structure MethodFact where
  name : String
  signature : Option String
  parameterTypes : List String
  returnType : Option String
  lineStart : Option Int
  lineEnd : Option Int
  verb : Option String
  path : Option String
  invocations : List Invocation
  outboundCalls : List OutboundCall
  topicCalls : List TopicCall
  deriving DecidableEq, Repr

structure TableAccess where
  tableName : String
  entityClass : Option String
  databaseType : Option String
  operations : List String
  deriving DecidableEq, Repr

structure Component where
  name : String
  qualifiedName : String
  package : String
  kind : ComponentKind
  interfaces : List String
  dependencies : Table String Dependency
  methods : List MethodFact
  basePath : Option String
  tableAccess : Option TableAccess
  lineStart : Option Int
  lineEnd : Option Int
  deriving DecidableEq, Repr

/-- All facts of one analysis. `interfaceMap` gives the implementations known for an interface, and
`bound` says that the dependencies have been bound, which only binding itself sets. -/
structure FactSet where
  projectId : String
  components : List Component
  interfaceMap : Table String (List String)
  bound : Bool
  deriving DecidableEq, Repr

/-- The topic of a call whose topic is not known. -/
def unknownTopic : String := "<unknown>"

def FactSet.componentNames (facts : FactSet) : List String :=
  Text.sorted (distinct (facts.components.map (·.qualifiedName)))

end ArchGraph

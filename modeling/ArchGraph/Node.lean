import ArchGraph.Fact

/-!
The elements of a resolved architecture: what the facts of a project become once every call in them
has found its target or been left out.
-/

namespace ArchGraph

/-- The part a method plays. -/
inductive MethodKind where
  | service
  | repository
  | listener
  | handler
  deriving DecidableEq, Repr

instance : Coded MethodKind where
  all := [.service, .repository, .listener, .handler]
  code
    | .service => "service_method"
    | .repository => "repository_method"
    | .listener => "listener_method"
    | .handler => "endpoint_handler"

/-- The methods that a resolved call can reach. -/
def MethodKind.isTarget : MethodKind → Bool
  | .service => true
  | .repository => true
  | _ => false

structure ComponentNode where
  id : String
  name : String
  qualifiedName : String
  package : String
  kind : ComponentKind
  basePath : Option String
  lineStart : Option Int
  lineEnd : Option Int
  tableId : Option String
  deriving DecidableEq, Repr

/-- What is known of a method when it is registered. -/
structure MethodDecl where
  id : String
  className : String
  qualifiedClass : String
  componentId : String
  methodName : String
  signature : Option String
  kind : MethodKind
  lineStart : Option Int
  lineEnd : Option Int
  deriving DecidableEq, Repr

/-- Class and name: overloads share it. -/
def MethodDecl.key (m : MethodDecl) : String × String := (m.qualifiedClass, m.methodName)

/-- A method with the links found for it, each in order of discovery. A sealed one takes no more. -/
structure MethodNode extends MethodDecl where
  calls : List String
  externalCallIds : List String
  producesTo : List String
  consumesFrom : List String
  isSealed : Bool
  deriving DecidableEq, Repr

/-- The links of a method other than its calls, and its calls. -/
inductive LinkKind where
  | calls
  | externalCallIds
  | producesTo
  | consumesFrom
  deriving DecidableEq, Repr

/-- A sealed method was to be linked. -/
structure SealedError where
  methodId : String
  deriving DecidableEq, Repr

def SealedError.message (e : SealedError) : String :=
  "Method node " ++ e.methodId ++ " is read-only after the run completed"

namespace MethodNode

def ofDecl (m : MethodDecl) : MethodNode := ⟨m, [], [], [], [], false⟩

/-- Whatever happens to the list, the target is in it afterwards, once if it was new. -/
def link (m : MethodNode) (kind : LinkKind) (target : String) : MethodNode :=
  match kind with
  | .calls => { m with calls := addNew m.calls target }
  | .externalCallIds => { m with externalCallIds := addNew m.externalCallIds target }
  | .producesTo => { m with producesTo := addNew m.producesTo target }
  | .consumesFrom => { m with consumesFrom := addNew m.consumesFrom target }

/-- Link an open method. -/
def link? (m : MethodNode) (kind : LinkKind) (target : String) : Except SealedError MethodNode :=
  if m.isSealed then .error ⟨m.id⟩ else .ok (m.link kind target)

/-- Add a call to an open method, and say whether it is a new one. -/
def addCall? (m : MethodNode) (target : String) : Except SealedError (Bool × MethodNode) :=
  if m.isSealed then .error ⟨m.id⟩ else .ok (target ∉ m.calls, m.link .calls target)

def sealed (m : MethodNode) : MethodNode := { m with isSealed := true }

end MethodNode

/-- A way into the project. -/
structure EndpointNode where
  id : String
  verb : Option String
  path : String
  componentName : String
  handlerMethodId : Option String
  handlerMethodName : Option String
  deriving DecidableEq, Repr

/-- A way out of the project, and the endpoint it was found to lead to. -/
structure ExternalCallNode where
  id : String
  sourceMethodId : String
  clientKind : String
  verb : Option String
  url : Option String
  line : Option Int
  resolved : Bool
  targetEndpointId : Option String
  targetComponent : Option String
  targetHandler : Option String
  targetService : Option String
  reason : Option String
  score : Int
  deriving DecidableEq, Repr

/-- All producers and consumers of one topic. -/
structure TopicNode where
  id : String
  name : String
  scopeKey : String
  producers : List String
  consumers : List String
  producerDetails : List String
  consumerDetails : List String
  deriving DecidableEq, Repr

/-- Produced and never consumed. -/
def TopicNode.lacksConsumers (t : TopicNode) : Bool := !t.producers.isEmpty && t.consumers.isEmpty

/-- Consumed and never produced. -/
def TopicNode.lacksProducers (t : TopicNode) : Bool := !t.consumers.isEmpty && t.producers.isEmpty

structure TableNode where
  id : String
  name : String
  entityClass : Option String
  databaseType : Option String
  operations : List String
  deriving DecidableEq, Repr

/-- An invocation that reached no method, and why. -/
structure SkippedInvocation where
  sourceMethodId : String
  methodName : String
  declaredType : Option String
  line : Option Int
  reason : String
  deriving DecidableEq, Repr

/-- Everything one analysis resolved, under identifiers in order of registration. -/
structure ResolvedGraph where
  projectId : String
  components : Table String ComponentNode
  methods : Table String MethodNode
  endpoints : Table String EndpointNode
  externalCalls : Table String ExternalCallNode
  topics : Table String TopicNode
  tables : Table String TableNode
  skipped : List SkippedInvocation
  deriving DecidableEq, Repr

namespace ResolvedGraph

def empty (projectId : String) : ResolvedGraph := ⟨projectId, ∅, ∅, ∅, ∅, ∅, ∅, []⟩

def callEdges (g : ResolvedGraph) : List (String × String) :=
  g.methods.values.flatMap (fun m => m.calls.map (fun target => (m.id, target)))

def sealed (g : ResolvedGraph) : ResolvedGraph :=
  { g with methods := g.methods.map (·.sealed) }

end ResolvedGraph

end ArchGraph

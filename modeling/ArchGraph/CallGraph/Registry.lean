import ArchGraph.Resolution
import ArchGraph.Route.Score

/-!
Registering the facts of a project: every component and method gets its node, and every method its
names in the index. Registration order decides who owns a shared name, so components are registered
in an order that does not depend on how the facts were listed.
-/

namespace ArchGraph

/-- What is called comes before what calls. -/
def ComponentKind.rank : ComponentKind → Nat
  | .dataAccessor => 0
  | .businessService => 1
  | .messageListener => 2
  | .entryPointHandler => 3
  | .configuration => 4

/-- The kind of the methods of a component; a configuration has none. -/
def ComponentKind.methodKind? : ComponentKind → Option MethodKind
  | .dataAccessor => some .repository
  | .businessService => some .service
  | .messageListener => some .listener
  | .entryPointHandler => some .handler
  | .configuration => none

/-- Whether the first component is registered no later than the second. -/
def Component.precedes (a b : Component) : Bool :=
  decide (a.kind.rank < b.kind.rank) ||
    (a.kind.rank == b.kind.rank && decide (a.qualifiedName ≤ b.qualifiedName))

/-- By kind, then by qualified name. -/
def registrationOrder (components : List Component) : List Component :=
  components.mergeSort Component.precedes

/-- The first component of each qualified name. -/
def firstOfName : List String → List Component → List Component
  | _, [] => []
  | seen, c :: rest =>
    if c.qualifiedName ∈ seen then firstOfName seen rest
    else c :: firstOfName (c.qualifiedName :: seen) rest

def MethodFact.id (owner : Component) (m : MethodFact) : String :=
  Identifier.method owner.qualifiedName m.name m.parameterTypes m.signature

/-- A registered method with the facts it was made of. -/
structure Registered where
  decl : MethodDecl
  owner : Component
  fact : MethodFact
  deriving DecidableEq, Repr

structure Registry where
  graph : ResolvedGraph
  index : Index
  /-- In order of registration. -/
  methods : List Registered
  deriving DecidableEq, Repr

namespace Registry

def empty (projectId : String) : Registry := ⟨.empty projectId, .empty, []⟩

def find? (r : Registry) (id : String) : Option Registered := r.methods.find? (·.decl.id = id)

/-- The table a component works on; its operations join those known of the table. -/
def addTable (tables : Table String TableNode) (access : TableAccess) : Table String TableNode :=
  tables.upsert (Identifier.table access.tableName) (fun known =>
    match known with
    | none => ⟨Identifier.table access.tableName, access.tableName, access.entityClass,
        access.databaseType, distinct access.operations⟩
    | some t => { t with operations := access.operations.foldl addNew t.operations })

def componentNode (c : Component) : ComponentNode where
  id := Identifier.component c.qualifiedName
  name := c.name
  qualifiedName := c.qualifiedName
  package := c.package
  kind := c.kind
  basePath := c.basePath
  lineStart := c.lineStart
  lineEnd := c.lineEnd
  tableId := c.tableAccess.map (fun access => Identifier.table access.tableName)

def addComponent (g : ResolvedGraph) (c : Component) : ResolvedGraph :=
  { g with
    components := g.components.insert (Identifier.component c.qualifiedName) (componentNode c)
    tables := c.tableAccess.elim g.tables (addTable g.tables) }

def methodDecl (c : Component) (kind : MethodKind) (m : MethodFact) : MethodDecl where
  id := m.id c
  className := c.name
  qualifiedClass := c.qualifiedName
  componentId := Identifier.component c.qualifiedName
  methodName := m.name
  signature := m.signature
  kind := kind
  lineStart := m.lineStart
  lineEnd := m.lineEnd

/-- The names of the interfaces of a component, each as it is and without its package. -/
def interfaceNames (c : Component) : List String :=
  c.interfaces.flatMap (fun i =>
    addNew [i] ((Text.given? (Identifier.simpleName? i)).getD i))

/-- A service method also answers to the interfaces of its component. -/
def addAliases (index : Index) (c : Component) (decl : MethodDecl) : Index :=
  if decl.kind = .service then
    (interfaceNames c).foldl
      (fun index name => (index.addAlias (methodKey name decl.methodName) decl).2) index
  else index

/-- The endpoint a handler method serves. The first handler of an endpoint keeps it. -/
def addEndpoint (endpoints : Table String EndpointNode) (c : Component) (m : MethodFact)
    (decl : MethodDecl) : Table String EndpointNode :=
  if decl.kind = .handler then
    let path := Route.joinPaths c.basePath m.path
    let verb := Text.upperCase (m.verb.getD "")
    let id := Identifier.endpoint (some verb) path
    endpoints.insertNew id ⟨id, some verb, path, c.name, some decl.id, some m.name⟩
  else endpoints

def externalCallNode (source : String) (call : OutboundCall) : ExternalCallNode where
  id := Identifier.externalCall call.verb call.url source
  sourceMethodId := source
  clientKind := call.clientKind
  verb := (Text.given? call.verb).map Text.upperCase
  url := call.url
  line := call.line
  resolved := false
  targetEndpointId := none
  targetComponent := none
  targetHandler := none
  targetService := none
  reason := none
  score := 0

/-- The first outbound call of an identifier stands for all of them. -/
def addExternalCall (source : String) (g : ResolvedGraph) (call : OutboundCall) : ResolvedGraph :=
  let node := externalCallNode source call
  if g.externalCalls.contains node.id then g
  else
    { g with
      externalCalls := g.externalCalls.insert node.id node
      methods := g.methods.modify source (·.link .externalCallIds node.id) }

/-- A handler method without a verb serves nothing. -/
def isServed (kind : MethodKind) (m : MethodFact) : Bool :=
  kind != .handler || (Text.given? m.verb).isSome

/-- Register a method of a component, unless its identifier is taken. -/
def addMethod (c : Component) (kind : MethodKind) (r : Registry) (m : MethodFact) : Registry :=
  let decl := methodDecl c kind m
  if !isServed kind m || r.graph.methods.contains decl.id then r
  else
    let graph := { r.graph with
      methods := r.graph.methods.insert decl.id (.ofDecl decl)
      endpoints := addEndpoint r.graph.endpoints c m decl }
    { graph := m.outboundCalls.foldl (addExternalCall decl.id) graph
      index := addAliases (r.index.register decl) c decl
      methods := r.methods ++ [⟨decl, c, m⟩] }

/-- Register a component and its methods. -/
def add (r : Registry) (c : Component) : Registry :=
  let named := { r with graph := addComponent r.graph c }
  match c.kind.methodKind? with
  | none => named
  | some kind => c.methods.foldl (addMethod c kind) named

def ofFacts (facts : FactSet) : Registry :=
  (firstOfName [] (registrationOrder facts.components)).foldl add (.empty facts.projectId)

end Registry

end ArchGraph

import ArchGraph.Graph

/-!
The architecture graph of a resolved project. Nodes and edges are added in the order of identifiers,
so that equal projects give equal graphs.
-/

namespace ArchGraph

namespace Graph

/-- The entries of a table by key. -/
def inOrder {α : Type} (t : Table String α) : List (String × α) :=
  (Text.sorted t.keys).filterMap (fun k => (t.find? k).map (fun a => (k, a)))

def addNodes {α : Type} (type : NodeType) (attributes : α → List (String × Json))
    (t : Table String α) (g : Graph) : Graph :=
  (inOrder t).foldl (fun g e => g.addNode e.1 (Coded.code type) (attributes e.2)) g

/-- An edge to be added. -/
structure Link where
  source : String
  target : String
  type : EdgeType
  attributes : List (String × Json)
  deriving Repr

def Link.plain (type : EdgeType) (source target : String) : Link := ⟨source, target, type, []⟩

def addLink (g : Graph) (l : Link) : Graph :=
  g.addEdge l.source l.target (Coded.code l.type) l.attributes

def tableLinks (id : String) (c : ComponentNode) : List Link :=
  (Text.given? c.tableId).toList.map (Link.plain .accesses id)

def methodLinks (id : String) (m : MethodNode) : List Link :=
  Link.plain .hasMethod m.componentId id ::
    m.calls.map (Link.plain .calls id) ++
    m.externalCallIds.map (Link.plain .externalCall id) ++
    m.producesTo.map (Link.plain .producesTo id) ++
    m.consumesFrom.map (Link.plain .consumesFrom id)

def endpointLinks (id : String) (e : EndpointNode) : List Link :=
  (Text.given? e.handlerMethodId).toList.map (Link.plain .handledBy id)

def callLinks (id : String) (c : ExternalCallNode) : List Link :=
  if c.resolved then
    (Text.given? c.targetEndpointId).toList.map
      (fun target => ⟨id, target, .resolvesTo, [("score", .int c.score)]⟩)
  else []

def linksOf {α : Type} (links : String → α → List Link) (t : Table String α) : List Link :=
  (inOrder t).flatMap (fun e => links e.1 e.2)

def methodAttributes (m : MethodNode) : List (String × Json) :=
  [("name", .str m.methodName), ("class_name", .str m.className),
    ("qualified_class", .str m.qualifiedClass), ("signature", .ofText? m.signature),
    ("kind", Coded.toJson m.kind), ("line_start", .ofInt? m.lineStart),
    ("line_end", .ofInt? m.lineEnd)]

/-- The nodes of a resolved project. -/
def exportNodes (r : ResolvedGraph) (g : Graph) : Graph :=
  addNodes .topic TopicNode.attributes r.topics <|
  addNodes .externalCall ExternalCallNode.attributes r.externalCalls <|
  addNodes .endpoint EndpointNode.attributes r.endpoints <|
  addNodes .method methodAttributes r.methods <|
  addNodes .databaseTable TableNode.attributes r.tables <|
  addNodes .component ComponentNode.attributes r.components g

def exportLinks (r : ResolvedGraph) : List Link :=
  linksOf tableLinks r.components ++ linksOf methodLinks r.methods ++
    linksOf endpointLinks r.endpoints ++ linksOf callLinks r.externalCalls

def ofResolved (space : String) (r : ResolvedGraph) : Graph :=
  let start : Graph :=
    ⟨space,
      ⟨[("project_id", .str r.projectId), ("skipped_invocations", .ofNat r.skipped.length)]⟩, ∅⟩
  (exportLinks r).foldl addLink (exportNodes r start)

end Graph

end ArchGraph

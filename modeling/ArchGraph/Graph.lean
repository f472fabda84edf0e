import ArchGraph.Node.Document

/-!
The architecture graph: nodes with attributes, and between two nodes at most one relationship of
each type. Nodes keep their order of arrival; the relationships of a node are grouped by their
target.
-/

namespace ArchGraph

abbrev Attributes := Table String Json

inductive NodeType where
  | component
  | method
  | endpoint
  | externalCall
  | topic
  | databaseTable
  deriving DecidableEq, Repr

instance : Coded NodeType where
  all := [.component, .method, .endpoint, .externalCall, .topic, .databaseTable]
  code
    | .component => "component"
    | .method => "method"
    | .endpoint => "endpoint"
    | .externalCall => "external_call"
    | .topic => "topic"
    | .databaseTable => "database_table"

inductive EdgeType where
  | hasMethod
  | calls
  | handledBy
  | externalCall
  | resolvesTo
  | producesTo
  | consumesFrom
  | accesses
  deriving DecidableEq, Repr

instance : Coded EdgeType where
  all := [.hasMethod, .calls, .handledBy, .externalCall, .resolvesTo, .producesTo, .consumesFrom,
    .accesses]
  code
    | .hasMethod => "HAS_METHOD"
    | .calls => "CALLS"
    | .handledBy => "HANDLED_BY"
    | .externalCall => "EXTERNAL_CALL"
    | .resolvesTo => "RESOLVES_TO"
    | .producesTo => "PRODUCES_TO"
    | .consumesFrom => "CONSUMES_FROM"
    | .accesses => "ACCESSES"

/-- The attributes that say a node has changed when they differ. Where the code stands is not among
them: moving code is no change of the architecture. -/
def NodeType.comparedNames : NodeType → List String
  | .component => ["name", "qualified_name", "package", "kind", "base_path", "table_id"]
  | .method => ["name", "class_name", "qualified_class", "signature", "kind"]
  | .endpoint => ["http_method", "path", "component_name", "handler_method_name"]
  | .externalCall => ["client_kind", "http_method", "url", "resolved", "target_endpoint_id",
      "target_component", "target_handler_method", "target_service"]
  | .topic => ["name", "producers", "consumers"]
  | .databaseTable => ["name", "entity_class", "database_type", "operations"]

/-- A node: its attributes, and for each target the relationships to it by type. -/
structure GraphNode where
  attributes : Attributes
  out : Table String (Table String Attributes)
  deriving Repr

/-- A relationship, identified by its first three parts. -/
structure Edge where
  source : String
  target : String
  type : String
  attributes : Attributes
  deriving Repr

/-- The graph under the name of the space it belongs to. -/
structure Graph where
  space : String
  attributes : Attributes
  nodes : Table String GraphNode
  deriving Repr

/-- An attribute by name; one that is not there counts as null. -/
def Table.attribute (attributes : Attributes) (name : String) : Json :=
  (attributes.find? name).getD .null

namespace Graph

def empty (space : String) : Graph := ⟨space, ∅, ∅⟩

def nodeIds (g : Graph) : List String := g.nodes.keys

def hasNode (g : Graph) (id : String) : Bool := g.nodes.contains id

/-- The attributes of a node; none where there is no node. -/
def attributesOf (g : Graph) (id : String) : Attributes :=
  ((g.nodes.find? id).map (·.attributes)).getD ∅

/-- Add a node or more attributes to it, the later ones winning. -/
def mergeNode (g : Graph) (id : String) (attributes : List (String × Json)) : Graph :=
  { g with nodes := g.nodes.upsert id (fun known =>
      let node := known.getD ⟨∅, ∅⟩
      { node with attributes := node.attributes.insertAll attributes }) }

/-- The name of the attribute that holds the type of a node. -/
def typeName : String := "node_type"

def addNode (g : Graph) (id type : String) (attributes : List (String × Json)) : Graph :=
  g.mergeNode id ((typeName, .str type) :: attributes)

/-- Relate two nodes, adding those that are not there. -/
def addEdge (g : Graph) (source target type : String) (attributes : List (String × Json)) : Graph :=
  let g := (g.mergeNode source []).mergeNode target []
  { g with nodes := g.nodes.modify source (fun node =>
      { node with out := node.out.upsert target (fun byType =>
          (byType.getD ∅).upsert type (fun known => (known.getD ∅).insertAll attributes)) }) }

def edgesFrom (source : String) (node : GraphNode) : List Edge :=
  node.out.entries.flatMap (fun e =>
    e.2.entries.map (fun typed => ⟨source, e.1, typed.1, typed.2⟩))

def edges (g : Graph) : List Edge :=
  g.nodes.entries.flatMap (fun e => edgesFrom e.1 e.2)

/-- The type of a node as it is written; a node made by an edge alone has none. -/
def nodeType (g : Graph) (id : String) : Json := (g.attributesOf id).attribute typeName

def isOfType (type : String) (attributes : Attributes) : Bool :=
  match attributes.find? typeName with
  | some (.str written) => written == type
  | _ => false

def nodesOfType (g : Graph) (type : String) : List (String × Attributes) :=
  (g.nodes.entries.map (fun e => (e.1, e.2.attributes))).filter (fun e => isOfType type e.2)

def edgesOfType (g : Graph) (type : String) : List Edge := g.edges.filter (·.type == type)

def callEdges (g : Graph) : List (String × String) :=
  (g.edgesOfType (Coded.code EdgeType.calls)).map (fun e => (e.source, e.target))

/-- The attributes of a node that are compared, all of them present. -/
def comparedProperties (attributes : Attributes) : Attributes :=
  match attributes.find? typeName with
  | some (.str written) =>
    ⟨((Coded.ofCode? written : Option NodeType).elim [] NodeType.comparedNames).map
      (fun name => (name, attributes.attribute name))⟩
  | _ => ∅

end Graph

end ArchGraph

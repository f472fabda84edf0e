import ArchGraph.Node

/-!
Resolved elements as documents. The parts that stand alone are what an exported graph shows of an
element.
-/

namespace ArchGraph

open Decoder

def ComponentNode.decode : Decoder ComponentNode := record fun o =>
  ComponentNode.mk <$> required "id" text o <*> required "name" text o <*>
    required "qualified_name" text o <*> withDefault "package" "" text o <*>
    required "kind" Coded.decode o <*> optional "base_path" text o <*>
    optional "line_start" integer o <*> optional "line_end" integer o <*> optional "table_id" text o

/-- All of a component but its identifier. -/
def ComponentNode.attributes (c : ComponentNode) : Entries :=
  [("name", .str c.name), ("qualified_name", .str c.qualifiedName), ("package", .str c.package),
    ("kind", Coded.toJson c.kind), ("base_path", .ofText? c.basePath),
    ("line_start", .ofInt? c.lineStart), ("line_end", .ofInt? c.lineEnd),
    ("table_id", .ofText? c.tableId)]

def ComponentNode.toJson (c : ComponentNode) : Json := .obj (("id", .str c.id) :: c.attributes)

def MethodDecl.decodeFields (o : Entries) : Checked MethodDecl :=
  MethodDecl.mk <$> required "id" text o <*> required "class_name" text o <*>
    required "qualified_class" text o <*> required "component_id" text o <*>
    required "method_name" text o <*> optional "signature" text o <*>
    required "kind" Coded.decode o <*> optional "line_start" integer o <*>
    optional "line_end" integer o

def MethodNode.decode : Decoder MethodNode := record fun o =>
  MethodNode.mk <$> MethodDecl.decodeFields o <*> Decoder.items "calls" text o <*>
    Decoder.items "external_call_ids" text o <*> Decoder.items "produces_to" text o <*>
    Decoder.items "consumes_from" text o <*> .ok false

def MethodNode.toJson (m : MethodNode) : Json :=
  .obj [("id", .str m.id), ("class_name", .str m.className),
    ("qualified_class", .str m.qualifiedClass), ("component_id", .str m.componentId),
    ("method_name", .str m.methodName), ("signature", .ofText? m.signature),
    ("kind", Coded.toJson m.kind), ("line_start", .ofInt? m.lineStart),
    ("line_end", .ofInt? m.lineEnd), ("calls", .ofTexts m.calls),
    ("external_call_ids", .ofTexts m.externalCallIds), ("produces_to", .ofTexts m.producesTo),
    ("consumes_from", .ofTexts m.consumesFrom)]

def EndpointNode.decode : Decoder EndpointNode := record fun o =>
  EndpointNode.mk <$> required "id" text o <*> optional "http_method" text o <*>
    required "path" text o <*> withDefault "component_name" "" text o <*>
    optional "handler_method_id" text o <*> optional "handler_method_name" text o

/-- All of an endpoint but its identifier and that of its handler. -/
def EndpointNode.attributes (e : EndpointNode) : Entries :=
  [("http_method", .ofText? e.verb), ("path", .str e.path),
    ("component_name", .str e.componentName),
    ("handler_method_name", .ofText? e.handlerMethodName)]

def EndpointNode.toJson (e : EndpointNode) : Json :=
  .obj (("id", .str e.id) :: e.attributes ++ [("handler_method_id", .ofText? e.handlerMethodId)])

def ExternalCallNode.decode : Decoder ExternalCallNode := record fun o =>
  ExternalCallNode.mk <$> required "id" text o <*> required "source_method_id" text o <*>
    withDefault "client_kind" "http" text o <*> optional "http_method" text o <*>
    optional "url" text o <*> optional "line" integer o <*>
      withDefault "resolved" false boolean o <*>
    optional "target_endpoint_id" text o <*> optional "target_component" text o <*>
    optional "target_handler_method" text o <*> optional "target_service" text o <*>
    optional "resolution_reason" text o <*> withDefault "match_score" 0 integer o

/-- All of an outbound call but its identifier and that of its method. -/
def ExternalCallNode.attributes (c : ExternalCallNode) : Entries :=
  [("client_kind", .str c.clientKind), ("http_method", .ofText? c.verb), ("url", .ofText? c.url),
    ("line", .ofInt? c.line), ("resolved", .bool c.resolved),
    ("target_endpoint_id", .ofText? c.targetEndpointId),
    ("target_component", .ofText? c.targetComponent),
    ("target_handler_method", .ofText? c.targetHandler),
    ("target_service", .ofText? c.targetService), ("resolution_reason", .ofText? c.reason),
    ("match_score", .int c.score)]

def ExternalCallNode.toJson (c : ExternalCallNode) : Json :=
  .obj (("id", .str c.id) :: ("source_method_id", .str c.sourceMethodId) :: c.attributes)

def TopicNode.decode : Decoder TopicNode := record fun o =>
  TopicNode.mk <$> required "id" text o <*> required "name" text o <*>
    required "scope_key" text o <*> Decoder.items "producers" text o <*>
    Decoder.items "consumers" text o <*> Decoder.items "producer_details" text o <*>
    Decoder.items "consumer_details" text o

/-- All of a topic but its identifier. -/
def TopicNode.attributes (t : TopicNode) : Entries :=
  [("name", .str t.name), ("scope_key", .str t.scopeKey), ("producers", .ofTexts t.producers),
    ("consumers", .ofTexts t.consumers), ("producer_details", .ofTexts t.producerDetails),
    ("consumer_details", .ofTexts t.consumerDetails)]

def TopicNode.toJson (t : TopicNode) : Json := .obj (("id", .str t.id) :: t.attributes)

def TableNode.decode : Decoder TableNode := record fun o =>
  TableNode.mk <$> required "id" text o <*> required "name" text o <*>
    optional "entity_class" text o <*> optional "database_type" text o <*>
    Decoder.items "operations" text o

/-- All of a table but its identifier. -/
def TableNode.attributes (t : TableNode) : Entries :=
  [("name", .str t.name), ("entity_class", .ofText? t.entityClass),
    ("database_type", .ofText? t.databaseType), ("operations", .ofTexts t.operations)]

def TableNode.toJson (t : TableNode) : Json := .obj (("id", .str t.id) :: t.attributes)

def SkippedInvocation.decode : Decoder SkippedInvocation := record fun o =>
  SkippedInvocation.mk <$> required "source_method_id" text o <*> required "method_name" text o <*>
    optional "declared_type" text o <*> optional "line" integer o <*> required "reason" text o

def SkippedInvocation.toJson (s : SkippedInvocation) : Json :=
  .obj [("source_method_id", .str s.sourceMethodId), ("method_name", .str s.methodName),
    ("declared_type", .ofText? s.declaredType), ("line", .ofInt? s.line), ("reason", .str s.reason)]

def ResolvedGraph.decode : Decoder ResolvedGraph := record fun o =>
  ResolvedGraph.mk <$> required "project_id" text o <*>
    withDefault "components" ∅ (dictionary ComponentNode.decode) o <*>
    withDefault "methods" ∅ (dictionary MethodNode.decode) o <*>
    withDefault "endpoints" ∅ (dictionary EndpointNode.decode) o <*>
    withDefault "external_calls" ∅ (dictionary ExternalCallNode.decode) o <*>
    withDefault "topics" ∅ (dictionary TopicNode.decode) o <*>
    withDefault "tables" ∅ (dictionary TableNode.decode) o <*>
    Decoder.items "skipped" SkippedInvocation.decode o

def Table.toJsonWith {α : Type} (f : α → Json) (t : Table String α) : Json :=
  .obj (t.map f).entries

def ResolvedGraph.toJson (g : ResolvedGraph) : Json :=
  .obj [("project_id", .str g.projectId),
    ("components", g.components.toJsonWith ComponentNode.toJson),
    ("methods", g.methods.toJsonWith MethodNode.toJson),
    ("endpoints", g.endpoints.toJsonWith EndpointNode.toJson),
    ("external_calls", g.externalCalls.toJsonWith ExternalCallNode.toJson),
    ("topics", g.topics.toJsonWith TopicNode.toJson),
    ("tables", g.tables.toJsonWith TableNode.toJson),
    ("skipped", .arr (g.skipped.map (·.toJson)))]

end ArchGraph

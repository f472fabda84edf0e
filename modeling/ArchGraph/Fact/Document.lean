import ArchGraph.Fact
import ArchGraph.Json.Display

/-!
Facts as documents.
-/

namespace ArchGraph

open Decoder

def Dependency.decode : Decoder Dependency := record fun o =>
  Dependency.mk <$> required "field_name" text o <*> required "declared_type" text o <*>
    optional "resolved_type" text o <*> withDefault "injection_type" .unknown Coded.decode o

def Dependency.toJson (d : Dependency) : Json :=
  .obj [("field_name", .str d.fieldName), ("declared_type", .str d.declaredType),
    ("resolved_type", .ofText? d.resolvedType), ("injection_type", Coded.toJson d.injection)]

def Invocation.decode : Decoder Invocation := record fun o =>
  Invocation.mk <$> required "method_name" text o <*> optional "declared_type_simple" text o <*>
    optional "declared_type_qualified" text o <*> optional "target_field_name" text o <*>
    withDefault "self_call" false boolean o <*> optional "line" integer o

def Invocation.toJson (i : Invocation) : Json :=
  .obj [("method_name", .str i.methodName), ("declared_type_simple", .ofText? i.declaredSimple),
    ("declared_type_qualified", .ofText? i.declaredQualified),
    ("target_field_name", .ofText? i.targetField), ("self_call", .bool i.selfCall),
    ("line", .ofInt? i.line)]

def OutboundCall.decode : Decoder OutboundCall := record fun o =>
  OutboundCall.mk <$> withDefault "client_kind" "http" text o <*> optional "http_method" text o <*>
    optional "url" text o <*> optional "line" integer o

def OutboundCall.toJson (c : OutboundCall) : Json :=
  .obj [("client_kind", .str c.clientKind), ("http_method", .ofText? c.verb),
    ("url", .ofText? c.url), ("line", .ofInt? c.line)]

/-- The name of a topic, trimmed. Any value may stand for it, and a blank one is unknown. -/
def topicName : Decoder String
  | .null => .ok unknownTopic
  | j =>
    let name := Text.trimmed j.display
    .ok (if name = "" then unknownTopic else name)

def TopicCall.decode : Decoder TopicCall := record fun o =>
  TopicCall.mk <$> withDefault "topic" unknownTopic topicName o <*>
    required "direction" Coded.decode o <*> optional "consumer_group" text o <*>
    optional "line" integer o

def TopicCall.toJson (c : TopicCall) : Json :=
  .obj [("topic", .str c.topic), ("direction", Coded.toJson c.direction),
    ("consumer_group", .ofText? c.consumerGroup), ("line", .ofInt? c.line)]

def MethodFact.decode : Decoder MethodFact := record fun o =>
  MethodFact.mk <$> required "name" text o <*> optional "signature" text o <*>
    Decoder.items "parameter_types" text o <*> optional "return_type" text o <*>
    optional "line_start" integer o <*> optional "line_end" integer o <*>
    optional "http_method" text o <*> optional "path" text o <*>
    Decoder.items "invocations" Invocation.decode o <*>
    Decoder.items "external_calls" OutboundCall.decode o <*>
    Decoder.items "topic_calls" TopicCall.decode o

def MethodFact.toJson (m : MethodFact) : Json :=
  .obj [("name", .str m.name), ("signature", .ofText? m.signature),
    ("parameter_types", .ofTexts m.parameterTypes), ("return_type", .ofText? m.returnType),
    ("line_start", .ofInt? m.lineStart), ("line_end", .ofInt? m.lineEnd),
    ("http_method", .ofText? m.verb), ("path", .ofText? m.path),
    ("invocations", .arr (m.invocations.map (·.toJson))),
    ("external_calls", .arr (m.outboundCalls.map (·.toJson))),
    ("topic_calls", .arr (m.topicCalls.map (·.toJson)))]

def TableAccess.decode : Decoder TableAccess := record fun o =>
  TableAccess.mk <$> required "table_name" text o <*> optional "entity_class" text o <*>
    optional "database_type" text o <*> Decoder.items "operations" text o

def TableAccess.toJson (t : TableAccess) : Json :=
  .obj [("table_name", .str t.tableName), ("entity_class", .ofText? t.entityClass),
    ("database_type", .ofText? t.databaseType), ("operations", .ofTexts t.operations)]

def Component.decode : Decoder Component := record fun o =>
  Component.mk <$> required "name" text o <*> required "qualified_name" text o <*>
    withDefault "package" "" text o <*> required "kind" Coded.decode o <*>
    Decoder.items "implemented_interfaces" text o <*>
    withDefault "dependencies" ∅ (dictionary Dependency.decode) o <*>
    Decoder.items "methods" MethodFact.decode o <*> optional "base_path" text o <*>
    optional "table_access" TableAccess.decode o <*> optional "line_start" integer o <*>
    optional "line_end" integer o

def Component.toJson (c : Component) : Json :=
  .obj [("name", .str c.name), ("qualified_name", .str c.qualifiedName),
    ("package", .str c.package), ("kind", Coded.toJson c.kind),
    ("implemented_interfaces", .ofTexts c.interfaces),
    ("dependencies", .obj (c.dependencies.map (·.toJson)).entries),
    ("methods", .arr (c.methods.map (·.toJson))), ("base_path", .ofText? c.basePath),
    ("table_access", .ofOption TableAccess.toJson c.tableAccess),
    ("line_start", .ofInt? c.lineStart), ("line_end", .ofInt? c.lineEnd)]

/-- Whether dependencies are bound is never taken from a document. -/
def FactSet.decodeFields (o : Entries) : Checked FactSet :=
  FactSet.mk <$> required "project_id" nonEmptyText o <*>
    Decoder.items "components" Component.decode o <*>
    withDefault "interface_map" ∅ (dictionary (list text)) o <*> .ok false

def FactSet.decode : Decoder FactSet := record decodeFields

/-- Facts with the interface map in the form `mapJson` gives it. -/
def FactSet.toJsonWith (mapJson : Table String (List String) → Json) (f : FactSet) : Json :=
  .obj [("project_id", .str f.projectId), ("components", .arr (f.components.map (·.toJson))),
    ("interface_map", mapJson f.interfaceMap), ("binding_complete", .bool f.bound)]

def FactSet.toJson (f : FactSet) : Json :=
  f.toJsonWith (fun t => .obj (t.map Json.ofTexts).entries)

end ArchGraph

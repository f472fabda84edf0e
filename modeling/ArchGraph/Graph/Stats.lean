import ArchGraph.Graph

/-!
Counts over a graph, in all and by type.
-/

namespace ArchGraph

structure GraphStats where
  space : String
  nodeCount : Int
  edgeCount : Int
  nodesByType : Table String Int
  edgesByType : Table String Int
  resolvedCalls : Int
  unresolvedCalls : Int
  skippedInvocations : Int
  deriving DecidableEq, Repr

namespace GraphStats

open Decoder

def decode : Decoder GraphStats := recordOf "GraphStats" fun o =>
  GraphStats.mk <$> required "namespace" text o <*> withDefault "node_count" 0 integer o <*>
    withDefault "edge_count" 0 integer o <*>
    withDefault "nodes_by_type" ∅ (dictionary integer) o <*>
    withDefault "edges_by_type" ∅ (dictionary integer) o <*>
    withDefault "resolved_external_calls" 0 integer o <*>
    withDefault "unresolved_external_calls" 0 integer o <*>
    withDefault "skipped_invocations" 0 integer o

def countsJson (counts : Table String Int) : Json := .obj (counts.map Json.int).entries

def toJson (s : GraphStats) : Json :=
  .obj [("namespace", .str s.space), ("node_count", .int s.nodeCount),
    ("edge_count", .int s.edgeCount), ("nodes_by_type", countsJson s.nodesByType),
    ("edges_by_type", countsJson s.edgesByType), ("resolved_external_calls", .int s.resolvedCalls),
    ("unresolved_external_calls", .int s.unresolvedCalls),
    ("skipped_invocations", .int s.skippedInvocations)]

end GraphStats

/-- How often each name occurs, in order of first occurrence. -/
def tally (names : List String) : Table String Int :=
  names.foldl (fun counts name => counts.upsert name (fun n => n.getD 0 + 1)) ∅

namespace Graph

/-- The type a node is counted under. -/
def countedType (attributes : Attributes) : String :=
  match attributes.find? typeName with
  | some (.str type) => type
  | _ => "unknown"

/-- The counts of a graph. The number of skipped invocations is what the graph itself says it is, so
a graph from a document may say something that is no number. -/
def stats (g : Graph) : Checked GraphStats :=
  let nodeTypes := g.nodes.values.map (fun n => countedType n.attributes)
  let calls := g.nodesOfType (Coded.code NodeType.externalCall)
  let resolved := calls.filter (fun e => (e.2.attribute "resolved").isTruthy)
  (fun skipped =>
    { space := g.space
      nodeCount := g.nodes.size
      edgeCount := g.edges.length
      nodesByType := tally (Text.sorted nodeTypes)
      edgesByType := tally (Text.sorted (g.edges.map (·.type)))
      resolvedCalls := resolved.length
      unresolvedCalls := calls.length - resolved.length
      skippedInvocations := skipped }) <$>
    Decoder.withDefault "skipped_invocations" 0 Decoder.integer g.attributes.entries

end Graph

end ArchGraph

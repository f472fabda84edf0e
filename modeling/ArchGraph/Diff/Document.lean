import ArchGraph.Diff

/-!
Diffs as documents.
-/

namespace ArchGraph

open Decoder

def PropertyDiff.decode : Decoder PropertyDiff := record fun o =>
  PropertyDiff.mk <$> required "name" text o <*> withDefault "old_value" .null any o <*>
    withDefault "new_value" .null any o

def PropertyDiff.toJson (p : PropertyDiff) : Json :=
  .obj [("name", .str p.name), ("old_value", p.oldValue), ("new_value", p.newValue)]

def NodeChange.decode : Decoder NodeChange := record fun o =>
  NodeChange.mk <$> required "node_id" text o <*> required "node_type" text o <*>
    optional "name" text o <*> required "change_type" Coded.decode o <*>
    Decoder.items "property_diffs" PropertyDiff.decode o

def NodeChange.toJson (c : NodeChange) : Json :=
  .obj [("node_id", .str c.nodeId), ("node_type", .str c.nodeType), ("name", .ofText? c.name),
    ("change_type", Coded.toJson c.change),
    ("property_diffs", .arr (c.properties.map (·.toJson)))]

def RelationshipChange.decode : Decoder RelationshipChange := record fun o =>
  RelationshipChange.mk <$> withDefault "relationship_id" "" text o <*>
    required "source_id" text o <*> required "target_id" text o <*>
    required "relationship_type" text o <*> required "change_type" Coded.decode o <*>
    Decoder.items "property_diffs" PropertyDiff.decode o

def RelationshipChange.toJson (c : RelationshipChange) : Json :=
  .obj [("relationship_id", .str c.id), ("source_id", .str c.source), ("target_id", .str c.target),
    ("relationship_type", .str c.type), ("change_type", Coded.toJson c.change),
    ("property_diffs", .arr (c.properties.map (·.toJson)))]

def DiffSummary.decode : Decoder DiffSummary := record fun o =>
  let count (name : String) := withDefault name (0 : Int) integer o
  let counts (name : String) := withDefault name ∅ (dictionary integer) o
  DiffSummary.mk <$> count "nodes_added" <*> count "nodes_modified" <*> count "nodes_removed" <*>
    count "relationships_added" <*> count "relationships_modified" <*>
    count "relationships_removed" <*> count "total_cycles" <*> count "new_cycles" <*>
    count "new_error_cycles" <*> counts "added_by_type" <*> counts "modified_by_type" <*>
    counts "removed_by_type"

def DiffSummary.toJson (s : DiffSummary) : Json :=
  .obj [("nodes_added", .int s.nodesAdded), ("nodes_modified", .int s.nodesModified),
    ("nodes_removed", .int s.nodesRemoved), ("relationships_added", .int s.relationshipsAdded),
    ("relationships_modified", .int s.relationshipsModified),
    ("relationships_removed", .int s.relationshipsRemoved), ("total_cycles", .int s.totalCycles),
    ("new_cycles", .int s.newCycles), ("new_error_cycles", .int s.newErrorCycles),
    ("added_by_type", GraphStats.countsJson s.addedByType),
    ("modified_by_type", GraphStats.countsJson s.modifiedByType),
    ("removed_by_type", GraphStats.countsJson s.removedByType)]

def GraphDiff.decode : Decoder GraphDiff := record fun o =>
  let nodes (name : String) := Decoder.items name NodeChange.decode o
  let relationships (name : String) := Decoder.items name RelationshipChange.decode o
  GraphDiff.mk <$> required "baseline" text o <*> required "candidate" text o <*>
    nodes "added_nodes" <*> nodes "modified_nodes" <*> nodes "removed_nodes" <*>
    relationships "added_relationships" <*> relationships "modified_relationships" <*>
    relationships "removed_relationships" <*> Decoder.items "cycles" Cycle.decode o <*>
    withDefault "summary" .empty DiffSummary.decode o

def GraphDiff.toJson (d : GraphDiff) : Json :=
  let nodes (changes : List NodeChange) := Json.arr (changes.map (·.toJson))
  let relationships (changes : List RelationshipChange) := Json.arr (changes.map (·.toJson))
  .obj [("baseline", .str d.baseline), ("candidate", .str d.candidate),
    ("added_nodes", nodes d.addedNodes), ("modified_nodes", nodes d.modifiedNodes),
    ("removed_nodes", nodes d.removedNodes),
    ("added_relationships", relationships d.addedRelationships),
    ("modified_relationships", relationships d.modifiedRelationships),
    ("removed_relationships", relationships d.removedRelationships),
    ("cycles", .arr (d.cycles.map (·.toJson))), ("summary", d.summary.toJson)]

end ArchGraph

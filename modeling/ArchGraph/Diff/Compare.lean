import ArchGraph.Diff.Document
import ArchGraph.Identifier

/-!
Comparing two graphs. Nodes are compared by the attributes that count for their type, relationships
by all their attributes, and every list comes out in the order of identifiers.
-/

namespace ArchGraph

namespace Diff

/-- The attributes with different values, in the order of their names. -/
def properties (old new : Attributes) : List PropertyDiff :=
  (Text.sorted (distinct (old.keys ++ new.keys))).filterMap (fun name =>
    if (old.attribute name).sameValue (new.attribute name) then none
    else some ⟨name, old.attribute name, new.attribute name⟩)

/-- The name a changed node is shown by: its name, its path or its address. -/
def shownName (attributes : Attributes) : Json :=
  if (attributes.attribute "name").isTruthy then attributes.attribute "name"
  else if (attributes.attribute "path").isTruthy then attributes.attribute "path"
  else attributes.attribute "url"

/-- A changed node. Its type and its name have to be texts to be shown. -/
def nodeChange (change : ChangeType) (id : String) (attributes : Attributes)
    (differing : List PropertyDiff) : Except (List Fault) NodeChange :=
  match NodeChange.decode (.obj [("node_id", .str id),
      ("node_type", (attributes.find? Graph.typeName).getD (.str "unknown")),
      ("name", shownName attributes), ("change_type", Coded.toJson change)]) with
  | .ok c => .ok { c with properties := differing }
  | .bad faults => .error faults

/-- How a node differs, a change of its type first. -/
def nodeProperties (old new : Attributes) : List PropertyDiff :=
  let oldType := old.attribute Graph.typeName
  let newType := new.attribute Graph.typeName
  (if oldType.sameValue newType then [] else [⟨Graph.typeName, oldType, newType⟩]) ++
    properties (Graph.comparedProperties old) (Graph.comparedProperties new)

/-- The nodes of the first graph that the second lacks, in order. -/
def onlyIn (g other : Graph) : List String :=
  Text.sorted (g.nodeIds.filter (fun id => !other.hasNode id))

def inBoth (g other : Graph) : List String :=
  Text.sorted (g.nodeIds.filter other.hasNode)

def addedNodes (baseline candidate : Graph) : Except (List Fault) (List NodeChange) :=
  (onlyIn candidate baseline).mapM (fun id => nodeChange .added id (candidate.attributesOf id) [])

def removedNodes (baseline candidate : Graph) : Except (List Fault) (List NodeChange) :=
  (onlyIn baseline candidate).mapM (fun id => nodeChange .removed id (baseline.attributesOf id) [])

/-- The common nodes that differ, with how they do. -/
def differingNodes (baseline candidate : Graph) : List (String × List PropertyDiff) :=
  ((inBoth baseline candidate).map (fun id =>
    (id, nodeProperties (baseline.attributesOf id) (candidate.attributesOf id)))).filter
    (fun e => !e.2.isEmpty)

def modifiedNodes (baseline candidate : Graph) : Except (List Fault) (List NodeChange) :=
  (differingNodes baseline candidate).mapM (fun e =>
    nodeChange .modified e.1 (candidate.attributesOf e.1) e.2)

/-- Source, target and type. -/
abbrev Triple := String × String × String

def tripleLE (a b : Triple) : Bool :=
  decide (a.1 < b.1) || (a.1 == b.1 && (decide (a.2.1 < b.2.1) ||
    (a.2.1 == b.2.1 && decide (a.2.2 ≤ b.2.2))))

/-- The relationships of a graph by what identifies them. -/
def relationships (g : Graph) : Table Triple Attributes :=
  ⟨g.edges.map (fun e => ((e.source, e.target, e.type), e.attributes))⟩

def relationshipChange (change : ChangeType) (t : Triple) (differing : List PropertyDiff) :
    RelationshipChange :=
  ⟨Identifier.relationship t.2.2 t.1 t.2.1, t.1, t.2.1, t.2.2, change, differing⟩

/-- The relationships of the first table that the second lacks, in order. -/
def onlyRelatedIn (rs others : Table Triple Attributes) : List Triple :=
  (rs.keys.filter (fun t => !others.contains t)).mergeSort tripleLE

def differingRelationships (old new : Table Triple Attributes) :
    List (Triple × List PropertyDiff) :=
  (((old.keys.filter new.contains).mergeSort tripleLE).map (fun t =>
    (t, properties ((old.find? t).getD ∅) ((new.find? t).getD ∅)))).filter (fun e => !e.2.isEmpty)

def summarize (d : GraphDiff) : DiffSummary where
  nodesAdded := d.addedNodes.length
  nodesModified := d.modifiedNodes.length
  nodesRemoved := d.removedNodes.length
  relationshipsAdded := d.addedRelationships.length
  relationshipsModified := d.modifiedRelationships.length
  relationshipsRemoved := d.removedRelationships.length
  totalCycles := d.cycles.length
  newCycles := d.newCycles.length
  newErrorCycles := (d.newCycles.filter (·.severity == .error)).length
  addedByType := tally (d.addedNodes.map (·.nodeType))
  modifiedByType := tally (d.modifiedNodes.map (·.nodeType))
  removedByType := tally (d.removedNodes.map (·.nodeType))

end Diff

/-- Compare a candidate with its baseline. -/
def Graph.diff (baseline candidate : Graph) (limit : Int) : Except (List Fault) GraphDiff := do
  let added ← Diff.addedNodes baseline candidate
  let removed ← Diff.removedNodes baseline candidate
  let modified ← Diff.modifiedNodes baseline candidate
  let old := Diff.relationships baseline
  let new := Diff.relationships candidate
  let cycles ← Cycle.compare (some baseline) candidate limit
  let d : GraphDiff :=
    { baseline := baseline.space
      candidate := candidate.space
      addedNodes := added
      modifiedNodes := modified
      removedNodes := removed
      addedRelationships := (Diff.onlyRelatedIn new old).map
        (Diff.relationshipChange .added · [])
      modifiedRelationships := (Diff.differingRelationships old new).map
        (fun e => Diff.relationshipChange .modified e.1 e.2)
      removedRelationships := (Diff.onlyRelatedIn old new).map
        (Diff.relationshipChange .removed · [])
      cycles := cycles
      summary := .empty }
  return { d with summary := Diff.summarize d }

end ArchGraph

import ArchGraph.Cycle
import ArchGraph.Graph.Stats

/-!
What has changed between two graphs: nodes and relationships that were added, modified or removed,
and the cycles of the candidate.
-/

namespace ArchGraph

inductive ChangeType where
  | added
  | modified
  | removed
  deriving DecidableEq, Repr

instance : Coded ChangeType where
  all := [.added, .modified, .removed]
  code
    | .added => "added"
    | .modified => "modified"
    | .removed => "removed"

structure PropertyDiff where
  name : String
  oldValue : Json
  newValue : Json
  deriving Repr

structure NodeChange where
  nodeId : String
  nodeType : String
  name : Option String
  change : ChangeType
  properties : List PropertyDiff
  deriving Repr

structure RelationshipChange where
  id : String
  source : String
  target : String
  type : String
  change : ChangeType
  properties : List PropertyDiff
  deriving Repr

structure DiffSummary where
  nodesAdded : Int
  nodesModified : Int
  nodesRemoved : Int
  relationshipsAdded : Int
  relationshipsModified : Int
  relationshipsRemoved : Int
  totalCycles : Int
  newCycles : Int
  newErrorCycles : Int
  addedByType : Table String Int
  modifiedByType : Table String Int
  removedByType : Table String Int
  deriving DecidableEq, Repr

namespace DiffSummary

def empty : DiffSummary := ⟨0, 0, 0, 0, 0, 0, 0, 0, 0, ∅, ∅, ∅⟩

/-- A known cycle is no change. -/
def hasChanges (s : DiffSummary) : Bool :=
  [s.nodesAdded, s.nodesModified, s.nodesRemoved, s.relationshipsAdded, s.relationshipsModified,
    s.relationshipsRemoved, s.newCycles].any (· != 0)

end DiffSummary

structure GraphDiff where
  baseline : String
  candidate : String
  addedNodes : List NodeChange
  modifiedNodes : List NodeChange
  removedNodes : List NodeChange
  addedRelationships : List RelationshipChange
  modifiedRelationships : List RelationshipChange
  removedRelationships : List RelationshipChange
  cycles : List Cycle
  summary : DiffSummary
  deriving Repr

def GraphDiff.newCycles (d : GraphDiff) : List Cycle := d.cycles.filter (·.isNew)

end ArchGraph

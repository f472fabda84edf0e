import ArchGraph.Graph.Document
import ArchGraph.Run

/-!
What is kept: runs under their identifiers, and graphs under the spaces they belong to. Times of
runs are compared by their stored texts.
-/

namespace ArchGraph

/-- The runs in order of their insertion. -/
structure RunStore where
  runs : Table String Run
  deriving Repr

namespace RunStore

def empty : RunStore := ⟨∅⟩

def get? (s : RunStore) (id : String) : Option Run := s.runs.find? id

/-- A run with a new identifier is added; nothing else is. -/
def insert? (s : RunStore) (run : Run) : Option RunStore :=
  if s.runs.contains run.id then none else some ⟨s.runs.insert run.id run⟩

/-- Record how far a known run has come: its status, error, diff and completion. -/
def update (s : RunStore) (run : Run) : RunStore :=
  ⟨s.runs.modify run.id (fun kept =>
    { kept with
      status := run.status
      errorMessage := run.errorMessage
      diff := run.diff
      completedAt := run.completedAt })⟩

def erase (s : RunStore) (id : String) : RunStore := ⟨s.runs.erase id⟩

/-- Whether the first run is listed no later than the second: the newer one first, and of two
created together the one with the lesser identifier. -/
def listedBefore (a b : Run) : Bool :=
  decide (b.createdAt.storedText < a.createdAt.storedText) ||
    (a.createdAt.storedText == b.createdAt.storedText && decide (a.id ≤ b.id))

def ofProject (s : RunStore) (projectId : String) : List Run :=
  (s.runs.values.filter (·.projectId == projectId)).mergeSort listedBefore

def isExpired (now : Timestamp) (run : Run) : Bool :=
  run.status.isTerminal && decide (run.expiresAt.storedText ≤ now.storedText)

/-- The ended runs whose time is over. -/
def expired (s : RunStore) (now : Timestamp) : List Run := s.runs.values.filter (isExpired now)

/-- The runs that have not ended, those under analysis first. -/
def active (s : RunStore) : List Run :=
  s.runs.values.filter (·.status == .analyzing) ++ s.runs.values.filter (·.status == .pending)

end RunStore

/-- A graph as it is kept: its document and what lists show of it. -/
structure Snapshot where
  projectId : String
  document : Json
  nodeCount : Nat
  edgeCount : Nat
  deriving Repr

/-- One graph for each space. -/
structure GraphStore where
  snapshots : Table String Snapshot
  deriving Repr

namespace GraphStore

def empty : GraphStore := ⟨∅⟩

/-- The part of a space before its first double colon. -/
def projectOfSpace (space : String) : String :=
  String.ofList (go space.toList)
where
  go : List Char → List Char
    | [] => []
    | c :: rest => if c == ':' && rest.head? == some ':' then [] else c :: go rest

/-- The project a graph is kept for: the one given, the one the graph names, or the one its space
starts with. -/
def projectOf (projectId : Option String) (g : Graph) : String :=
  match Text.given? projectId with
  | some id => id
  | none =>
    if (g.attributes.attribute "project_id").isTruthy then
      (g.attributes.attribute "project_id").display
    else projectOfSpace g.space

/-- Keep a graph in place of the one in its space. A graph without a space cannot be kept. -/
def save? (s : GraphStore) (projectId : Option String) (g : Graph) : Option GraphStore :=
  if g.space = "" then none
  else some ⟨s.snapshots.insert g.space
    ⟨projectOf projectId g, g.toJson, g.nodes.size, g.edges.length⟩⟩

def load? (s : GraphStore) (space : String) : Option Graph :=
  (s.snapshots.find? space).bind (fun snapshot => (Graph.ofJson space snapshot.document).toOption)

def contains (s : GraphStore) (space : String) : Bool := s.snapshots.contains space

def erase (s : GraphStore) (space : String) : GraphStore := ⟨s.snapshots.erase space⟩

/-- The spaces of a project in order. -/
def ofProject (s : GraphStore) (projectId : String) : List (String × Snapshot) :=
  (s.snapshots.entries.filter (fun e => e.2.projectId == projectId)).mergeSort
    (fun a b => decide (a.1 ≤ b.1))

end GraphStore

/-- The space of a project's baseline. -/
def baselineSpace (projectId : String) : String := projectId ++ "::baseline"

/-- The space of the graph of a run. -/
def candidateSpace (projectId runId : String) : String := projectId ++ "::candidate::" ++ runId

end ArchGraph

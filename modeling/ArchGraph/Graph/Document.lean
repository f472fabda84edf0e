import ArchGraph.Graph
import ArchGraph.Json.Display

/-!
Graphs as documents: a list of nodes, each an object of its attributes and its identifier, and a
list of edges, each an object of its attributes, ends and type. Reading a written graph gives it
back.
-/

namespace ArchGraph.Graph

def nodeJson (id : String) (attributes : Attributes) : Json :=
  .obj (attributes.insert "id" (.str id)).entries

def edgeJson (e : Edge) : Json :=
  .obj (e.attributes.insertAll
    [("source", .str e.source), ("target", .str e.target), ("key", .str e.type)]).entries

def toJson (g : Graph) : Json :=
  .obj [("directed", .bool true), ("multigraph", .bool true), ("graph", .obj g.attributes.entries),
    ("nodes", .arr (g.nodes.entries.map (fun e => nodeJson e.1 e.2.attributes))),
    ("edges", .arr (g.edges.map edgeJson))]

/-- A document that lacks a part no graph is without. -/
structure MissingPart where
  name : String
  deriving DecidableEq, Repr

def part (j : Json) (name : String) : Except MissingPart Json :=
  match j.get? name with
  | some value => .ok value
  | none => .error ⟨name⟩

def entriesOf : Json → List (String × Json)
  | .obj entries => entries
  | _ => []

def itemsOf : Json → List Json
  | .arr items => items
  | _ => []

def textOf : Json → String
  | .str s => s
  | j => j.display

/-- Take a node from its document. -/
def readNode (g : Graph) (j : Json) : Graph :=
  g.mergeNode (textOf ((j.get? "id").getD .null)) ((entriesOf j).filter (·.1 ≠ "id"))

/-- The names in an edge document that are not attributes. -/
def edgeNames : List String := ["source", "target", "key"]

/-- Take an edge from its document. -/
def readEdge (g : Graph) (j : Json) : Except MissingPart Graph := do
  let source ← part j "source"
  let target ← part j "target"
  return g.addEdge (textOf source) (textOf target) (textOf ((j.get? "key").getD .null))
    ((entriesOf j).filter (·.1 ∉ edgeNames))

def ofJson (space : String) (j : Json) : Except MissingPart Graph := do
  let nodes ← part j "nodes"
  let edges ← part j "edges"
  let attributes := Table.mk (entriesOf ((j.get? "graph").getD .null))
  (itemsOf edges).foldlM readEdge ((itemsOf nodes).foldl readNode ⟨space, attributes, ∅⟩)

end ArchGraph.Graph

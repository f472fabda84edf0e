import ArchGraph.Adjacency
import ArchGraph.Graph
import ArchGraph.Json.Display

/-!
Circular dependencies: components that call each other in a circle, which is an error, and methods
of different components that do, which is a warning.
-/

namespace ArchGraph

inductive Severity where
  | error
  | warning
  deriving DecidableEq, Repr

instance : Coded Severity where
  all := [.error, .warning]
  code
    | .error => "ERROR"
    | .warning => "WARNING"

inductive CycleKind where
  | component
  | method
  deriving DecidableEq, Repr

instance : Coded CycleKind where
  all := [.component, .method]
  code
    | .component => "component"
    | .method => "method"

/-- One hop of a cycle, and a call that makes it. -/
structure CycleEdge where
  sourceClass : String
  targetClass : String
  sourceMethod : Option String
  targetMethod : Option String
  deriving DecidableEq, Repr

/-- A closed walk: its first node is also its last. -/
structure Cycle where
  kind : CycleKind
  nodes : List String
  edges : List CycleEdge
  severity : Severity
  isNew : Bool
  signature : String
  deriving DecidableEq, Repr

open Decoder in
def CycleEdge.decode : Decoder CycleEdge := record fun o =>
  CycleEdge.mk <$> required "source_class" text o <*> required "target_class" text o <*>
    optional "source_method" text o <*> optional "target_method" text o

def CycleEdge.toJson (e : CycleEdge) : Json :=
  .obj [("source_class", .str e.sourceClass), ("target_class", .str e.targetClass),
    ("source_method", .ofText? e.sourceMethod), ("target_method", .ofText? e.targetMethod)]

namespace Cycle

def length (c : Cycle) : Nat := c.nodes.length - 1

open Decoder in
def decode : Decoder Cycle := record fun o =>
  Cycle.mk <$> required "kind" Coded.decode o <*> required "nodes" (list text) o <*>
    Decoder.items "edges" CycleEdge.decode o <*> required "severity" Coded.decode o <*>
    withDefault "new_in_candidate" false boolean o <*> withDefault "signature" "" text o

def toJson (c : Cycle) : Json :=
  .obj [("kind", Coded.toJson c.kind), ("nodes", .ofTexts c.nodes),
    ("edges", .arr (c.edges.map (·.toJson))), ("severity", Coded.toJson c.severity),
    ("new_in_candidate", .bool c.isNew), ("signature", .str c.signature)]

/-- The component that a method node belongs to, by its qualified name if the node has one. -/
def owner (attributes : Attributes) : Json :=
  let qualified := attributes.attribute "qualified_class"
  if qualified.isTruthy then qualified else attributes.attribute "class_name"

/-- The name a component is shown by. -/
def shownClass (attributes : Attributes) : Json :=
  let simple := attributes.attribute "class_name"
  if simple.isTruthy then simple else owner attributes

def edgeLE (a b : String × String) : Bool :=
  decide (a.1 < b.1) || (a.1 == b.1 && decide (a.2 ≤ b.2))

/-- The calls of a graph with the attributes of both methods, in the order of identifiers. -/
def sortedCalls (g : Graph) : List (Attributes × Attributes) :=
  (g.callEdges.mergeSort edgeLE).map (fun e => (g.attributesOf e.1, g.attributesOf e.2))

/-- A call between two components. -/
structure Crossing where
  source : String
  target : String
  sourceAttributes : Attributes
  targetAttributes : Attributes
  deriving Repr

/-- Components are named by texts. A call of anything else is in no cycle, since that could not be
reported. -/
def crossing? (call : Attributes × Attributes) : Option Crossing :=
  match owner call.1, owner call.2 with
  | .str source, .str target =>
    if source = "" ∨ target = "" ∨ source = target then none
    else some ⟨source, target, call.1, call.2⟩
  | _, _ => none

def crossings (g : Graph) : List Crossing := (sortedCalls g).filterMap crossing?

/-- The components each component calls. -/
def componentAdjacency (cs : List Crossing) : Adjacency :=
  cs.foldl (fun a c => a.upsert c.source (fun known => addNew (known.getD []) c.target)) ∅

/-- The shown name of each component, the last one told counting. -/
def shownNames (cs : List Crossing) : Table String Json :=
  cs.foldl (fun t c => (t.insert c.source (shownClass c.sourceAttributes)).insert c.target
    (shownClass c.targetAttributes)) ∅

/-- The methods of the first call between two components. -/
def exampleCall (cs : List Crossing) (source target : String) : Json × Json :=
  ((cs.find? (fun c => c.source == source && c.target == target)).map (fun c =>
    (c.sourceAttributes.attribute "name", c.targetAttributes.attribute "name"))).getD (.null, .null)

/-- Consecutive nodes. -/
def hops (nodes : List String) : List (String × String) := nodes.zip (nodes.drop 1)

def edgeOf (sourceClass targetClass sourceMethod targetMethod : Json) :
    Except (List Fault) CycleEdge :=
  match CycleEdge.decode (.obj [("source_class", sourceClass), ("target_class", targetClass),
      ("source_method", sourceMethod), ("target_method", targetMethod)]) with
  | .ok e => .ok e
  | .bad faults => .error faults

/-- The cycles between components. -/
def ofComponents (g : Graph) (limit : Int) : Except (List Fault) (List Cycle) :=
  let cs := crossings g
  let shown := shownNames cs
  (Adjacency.cycles (componentAdjacency cs) [] limit).mapM (fun nodes => do
    let edges ← (hops nodes).mapM (fun h =>
      let methods := exampleCall cs h.1 h.2
      edgeOf (shown.attribute h.1) (shown.attribute h.2) methods.1 methods.2)
    return ⟨.component, nodes, edges, .error, false, Adjacency.signature nodes⟩)

/-- A method as a node of the method graph: owner, shown class and name. -/
structure MethodInfo where
  owner : Json
  shown : Json
  name : Json
  deriving Repr

def methodInfo (attributes : Attributes) : MethodInfo :=
  ⟨owner attributes, shownClass attributes, attributes.attribute "name"⟩

/-- Overloads of a method are one node. -/
def MethodInfo.key (m : MethodInfo) : String := m.owner.display ++ "." ++ m.name.display

def methodCalls (g : Graph) : List (MethodInfo × MethodInfo) :=
  g.callEdges.map (fun e => (methodInfo (g.attributesOf e.1), methodInfo (g.attributesOf e.2)))

def methodAdjacency (calls : List (MethodInfo × MethodInfo)) : Adjacency :=
  calls.foldl (fun a c => a.upsert c.1.key (fun known => addNew (known.getD []) c.2.key)) ∅

/-- What is known of each method, the last telling counting. -/
def methodInfos (calls : List (MethodInfo × MethodInfo)) : Table String MethodInfo :=
  calls.foldl (fun t c => (t.insert c.1.key c.1).insert c.2.key c.2) ∅

def infoOf (infos : Table String MethodInfo) (key : String) : MethodInfo :=
  (infos.find? key).getD ⟨.null, .null, .null⟩

/-- Whether the nodes belong to two components at least. -/
def crossesComponents (infos : Table String MethodInfo) (nodes : List String) : Bool :=
  match nodes with
  | [] => false
  | first :: rest =>
    rest.any (fun n => !(infoOf infos n).owner.sameValue (infoOf infos first).owner)

/-- The cycles between methods of different components. -/
def ofMethods (g : Graph) (limit : Int) : Except (List Fault) (List Cycle) :=
  let calls := methodCalls g
  let infos := methodInfos calls
  ((Adjacency.cycles (methodAdjacency calls) [] limit).filter (crossesComponents infos)).mapM
    (fun nodes => do
    let edges ← (hops nodes).mapM (fun h =>
      let a := infoOf infos h.1
      let b := infoOf infos h.2
      edgeOf a.shown b.shown a.name b.name)
    return ⟨.method, nodes, edges, .warning, false, Adjacency.signature nodes⟩)

/-- All cycles of a graph. Calls between nodes that name no class cannot be shown. -/
def detect (g : Graph) (limit : Int) : Except (List Fault) (List Cycle) := do
  let components ← ofComponents g limit
  let methods ← ofMethods g limit
  return components ++ methods

/-- Mark the cycles that are not among the known ones of the same kind. -/
def markNew (known cycles : List Cycle) : List Cycle :=
  cycles.map (fun c =>
    { c with isNew := !known.any (fun k => k.kind == c.kind && k.signature == c.signature) })

/-- The cycles of a candidate, those that the baseline lacks marked as new. -/
def compare (baseline : Option Graph) (candidate : Graph) (limit : Int) :
    Except (List Fault) (List Cycle) := do
  let known ← match baseline with
    | none => Except.ok []
    | some g => detect g limit
  return markNew known (← detect candidate limit)

end Cycle

end ArchGraph

import ArchGraph.Table
import ArchGraph.Text

/-!
Finding cycles in a directed graph by depth-first search. A cycle is reported where an edge leads
back to a node on the present path, once for all its rotations.
-/

namespace ArchGraph

/-- The targets of each node. -/
abbrev Adjacency := Table String (List String)

namespace Adjacency

/-- The longest way back along the path that is followed unless another is asked for. -/
def defaultWalkLimit : Int := 100

/-- A cycle without the repetition of its first node at the end. -/
def opened (nodes : List String) : List String :=
  if 1 < nodes.length ∧ nodes.head? = nodes.getLast? then nodes.dropLast else nodes

/-- The least of the names. -/
def least? : List String → Option String
  | [] => none
  | x :: xs => some (xs.foldl (fun m y => if y < m then y else m) x)

/-- Begin at the first occurrence of the least node. -/
def rotated (nodes : List String) : List String :=
  match least? nodes with
  | none => []
  | some m => nodes.dropWhile (· ≠ m) ++ nodes.takeWhile (· ≠ m)

/-- The same text for all rotations of a cycle. -/
def signature (nodes : List String) : String := " -> ".intercalate (rotated (opened nodes))

/-- The targets of a node in order, each once. -/
def neighbours (adjacency : Adjacency) (node : String) : List String :=
  Text.sorted (distinct ((adjacency.find? node).getD []))

structure Search where
  visited : List String
  signatures : List String
  /-- In order of discovery. -/
  cycles : List (List String)
  deriving DecidableEq, Repr

/-- The cycle that an edge from the end of a path back to `target` closes. The path is listed from
its end. -/
def closing (target : String) (path : List String) : List String :=
  target :: (path.takeWhile (· ≠ target)).reverse ++ [target]

/-- Whether the way back to `target` is within the limit. -/
def withinLimit (limit : Int) (target : String) (path : List String) : Bool :=
  let steps := (path.takeWhile (· ≠ target)).length
  steps == 0 || decide ((steps : Int) ≤ limit)

def Search.report (s : Search) (cycle : List String) : Search :=
  if signature cycle ∈ s.signatures then s
  else { s with signatures := signature cycle :: s.signatures, cycles := s.cycles ++ [cycle] }

def Search.enter (s : Search) (node : String) : Search := { s with visited := node :: s.visited }

/-- Follow the edges of the node at the end of a path. `depth` bounds how much longer it can get. -/
def explore (adjacency : Adjacency) (limit : Int) : Nat → List String → Search → Search
  | 0, _, s => s
  | depth + 1, path, s =>
    (neighbours adjacency (path.headD "")).foldl
      (fun s next =>
        if next ∉ s.visited then explore adjacency limit depth (next :: path) (s.enter next)
        else if next ∈ path ∧ withinLimit limit next path then s.report (closing next path)
        else s)
      s

/-- All nodes, those that are only targets too. -/
def nodes (adjacency : Adjacency) : List String :=
  distinct (adjacency.keys ++ adjacency.values.flatten)

/-- Where the search starts: the nodes asked for, then all others that have edges, in order. -/
def roots (adjacency : Adjacency) (start : List String) : List String :=
  distinct (start ++ Text.sorted adjacency.keys)

def exploreFrom (adjacency : Adjacency) (limit : Int) (s : Search) (root : String) : Search :=
  if root ∈ s.visited then s
  else explore adjacency limit ((nodes adjacency).length + 1) [root] (s.enter root)

/-- The cycles of a graph, each closed by the repetition of its first node. -/
def cycles (adjacency : Adjacency) (start : List String) (limit : Int) : List (List String) :=
  ((roots adjacency start).foldl (exploreFrom adjacency limit) ⟨[], [], []⟩).cycles

end Adjacency

end ArchGraph

import ArchGraph.Node

/-!
Looking methods up by the names a call can know them by. The first method offered under a name keeps
it. Every kind of method has a scope of its own, and the methods that calls can reach share one
more, which aliases never enter.
-/

namespace ArchGraph

/-- The name of a method within its class. -/
def methodKey (className methodName : String) : String := className ++ "#" ++ methodName

structure Index where
  ofKind : Table (MethodKind × String) MethodDecl
  targets : Table String MethodDecl
  /-- In order of registration. -/
  registered : List MethodDecl
  deriving DecidableEq, Repr

/-- Where a name is looked up. -/
inductive Scope where
  /-- Among all methods that calls can reach. -/
  | targets
  /-- Among the methods of these kinds, one kind after the other. -/
  | among (kinds : List MethodKind)
  deriving DecidableEq, Repr

/-- The names a method is registered under: with its class, with its full class name, by its
signature if it has one, and by itself. -/
def MethodDecl.names (m : MethodDecl) : List String :=
  [methodKey m.className m.methodName, methodKey m.qualifiedClass m.methodName] ++
    (Text.given? m.signature).toList ++ [m.methodName]

namespace Index

def empty : Index := ⟨∅, ∅, []⟩

def register (index : Index) (m : MethodDecl) : Index where
  ofKind := m.names.foldl (fun t name => t.insertNew (m.kind, name) m) index.ofKind
  targets :=
    if m.kind.isTarget then m.names.foldl (fun t name => t.insertNew name m) index.targets
    else index.targets
  registered := index.registered ++ [m]

/-- Offer a method under one more name in its own scope, and say whether the name was free. -/
def addAlias (index : Index) (name : String) (m : MethodDecl) : Bool × Index :=
  (!index.ofKind.contains (m.kind, name),
    { index with ofKind := index.ofKind.insertNew (m.kind, name) m })

/-- The method that owns a name. The empty name has no owner. -/
def get? (index : Index) (scope : Scope) (name : String) : Option MethodDecl :=
  if name = "" then none
  else match scope with
    | .targets => index.targets.find? name
    | .among kinds => kinds.findSome? (fun kind => index.ofKind.find? (kind, name))

/-- The first class that has the method. -/
def probe (index : Index) (scope : Scope) (classes : List (Option String)) (methodName : String) :
    Option MethodDecl :=
  classes.findSome? (fun className =>
    (Text.given? className).bind (fun c => index.get? scope (methodKey c methodName)))

end Index

end ArchGraph

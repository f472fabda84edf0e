import ArchGraph.Fact
import ArchGraph.Identifier

/-!
Binding injected fields to components. A field may declare an interface, so the pass needs all
components of a run: it gathers who implements what, and then settles every field by the type it was
given, by its declared type, or by the first implementation of it that is a component.
-/

namespace ArchGraph

namespace Binding

/-- A type name without its type arguments. -/
def withoutArguments (typeName : String) : String :=
  Text.onChars (fun cs => Text.trim (Text.before '<' cs)) typeName

/-- The components in the order of their names. -/
def byName (components : List Component) : List Component :=
  components.mergeSort (fun a b => decide (a.qualifiedName ≤ b.qualifiedName))

/-- Interfaces and implementations: those the extractor gave, then those the components declare. -/
def pairs (facts : FactSet) : List (String × String) :=
  facts.interfaceMap.entries.flatMap
    (fun e => e.2.map (fun implementation => (withoutArguments e.1, implementation))) ++
  (byName facts.components).flatMap
    (fun c => c.interfaces.map (fun i => (withoutArguments i, c.qualifiedName)))

/-- The names an interface is reachable by: its own, and the one without its package. -/
def keys (interface : String) : List String :=
  addNew [interface] ((Text.given? (Identifier.simpleName? interface)).getD interface)

/-- List an implementation once under a name. -/
def addUnder (implementation : String) (map : Table String (List String)) (key : String) :
    Table String (List String) :=
  map.upsert key (fun listed => addNew (listed.getD []) implementation)

def addPair (map : Table String (List String)) (pair : String × String) :
    Table String (List String) :=
  (keys pair.1).foldl (addUnder pair.2) map

/-- The implementations of every interface, by both its names. -/
def interfaceMap (facts : FactSet) : Table String (List String) :=
  (pairs facts).foldl addPair ∅

/-- The components of a run by name. -/
structure Directory where
  /-- Simple names by qualified names, the last component of a qualified name counting. -/
  simpleNames : Table String String
  /-- Qualified names by simple names, the least one counting. -/
  qualifiedNames : Table String String
  deriving DecidableEq, Repr

def directory (components : List Component) : Directory :=
  let simpleNames := Table.ofList (components.map (fun c => (c.qualifiedName, c.name)))
  { simpleNames
    qualifiedNames := (Text.sorted simpleNames.keys).foldl
      (fun t q => t.insertNew ((simpleNames.find? q).getD "") q) ∅ }

namespace Directory

def hasComponent (d : Directory) (qualifiedName : String) : Bool :=
  d.simpleNames.contains qualifiedName

/-- The component a type name means: by its qualified name, or by its simple one if the type name
has no package. -/
def component? (d : Directory) (typeName : String) : Option String :=
  if d.hasComponent typeName then some typeName
  else if '.' ∈ typeName.toList then none
  else d.qualifiedNames.find? typeName

end Directory

/-- The implementations listed for a type under its own name, or else without its package. -/
def implementations (map : Table String (List String)) (typeName : String) : List String :=
  match map.find? typeName with
  | some (first :: rest) => first :: rest
  | _ =>
    (map.find? ((Text.given? (Identifier.simpleName? typeName)).getD typeName)).getD []

/-- The component a dependency is bound to. -/
def target? (d : Directory) (map : Table String (List String)) (dep : Dependency) :
    Option String :=
  let declared := withoutArguments dep.declaredType
  ((Text.given? dep.resolvedType).bind d.component?).or
    ((d.component? declared).or ((implementations map declared).find? d.hasComponent))

def bindComponent (d : Directory) (map : Table String (List String)) (c : Component) : Component :=
  { c with dependencies :=
      c.dependencies.map (fun dep => { dep with resolvedType := target? d map dep }) }

end Binding

/-- Bind every dependency. -/
def FactSet.bind (facts : FactSet) : FactSet :=
  let map := Binding.interfaceMap facts
  { facts with
    components := facts.components.map
      (Binding.bindComponent (Binding.directory facts.components) map)
    interfaceMap := map
    bound := true }

end ArchGraph

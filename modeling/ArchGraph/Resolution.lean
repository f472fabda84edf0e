import ArchGraph.Identifier
import ArchGraph.Index

/-!
Finding the method that an invocation reaches. Five steps are tried, from what is surest to what is
a guess: the own class, the injected field, the declared interface, the declared class, the bare
name.
-/

namespace ArchGraph

namespace Resolution

/-- The step that found a method. -/
inductive Step where
  | self
  | field
  | interface
  | direct
  | methodName
  deriving DecidableEq, Repr

def Step.label : Step → String
  | .self => "self"
  | .field => "field"
  | .interface => "interface"
  | .direct => "direct"
  | .methodName => "method-name"

/-- What invocations are resolved against: the registered methods and the implementations of
interfaces. -/
structure Context where
  index : Index
  interfaces : Table String (List String)
  deriving DecidableEq, Repr

/-- The names a component may be registered under, given its qualified name. -/
def classNames (qualifiedName : String) : List (Option String) :=
  [Identifier.simpleName? qualifiedName, some qualifiedName]

/-- A call of a method on the object itself stays within the methods of the same kind. -/
def bySelf (ctx : Context) (owner : Component) (kind : MethodKind) (i : Invocation) :
    Option MethodDecl :=
  if i.selfCall then
    ctx.index.probe (.among [kind]) [some owner.name, some owner.qualifiedName] i.methodName
  else none

/-- The component that the invoked field is bound to. -/
def boundType? (owner : Component) (i : Invocation) : Option String :=
  (Text.given? i.targetField).bind (fun field =>
    (owner.dependencies.find? field).bind (fun dep => Text.given? dep.resolvedType))

def byField (ctx : Context) (owner : Component) (i : Invocation) : Option MethodDecl :=
  (boundType? owner i).bind (fun type => ctx.index.probe .targets (classNames type) i.methodName)

/-- The declared type without its package, taken from the full name if it is not given. -/
def declaredSimple? (i : Invocation) : Option String :=
  (Text.given? i.declaredSimple).or (i.declaredQualified.bind Identifier.simpleName?)

/-- The names of the declared type. -/
def declaredNames (i : Invocation) : List (Option String) :=
  [declaredSimple? i, i.declaredQualified]

def hasDeclaredType (i : Invocation) : Bool :=
  (declaredNames i).any (fun n => (Text.given? n).isSome)

/-- The implementations listed for the declared type under its full name, or else under its simple
one. -/
def implementations (ctx : Context) (i : Invocation) : List String :=
  match ctx.interfaces.find? (i.declaredQualified.getD "") with
  | some (first :: rest) => first :: rest
  | _ => (ctx.interfaces.find? ((declaredSimple? i).getD "")).getD []

/-- A service that answers to the declared type, or the first of its implementations that has the
method. -/
def byInterface (ctx : Context) (i : Invocation) : Option MethodDecl :=
  if hasDeclaredType i then
    (ctx.index.probe (.among [.service]) (declaredNames i) i.methodName).or
      ((implementations ctx i).findSome? (fun name =>
        ctx.index.probe .targets (classNames name) i.methodName))
  else none

def byDeclaredType (ctx : Context) (i : Invocation) : Option MethodDecl :=
  if hasDeclaredType i then ctx.index.probe .targets (declaredNames i) i.methodName else none

/-- The first method registered under the bare name, whichever class it is of. -/
def byName (ctx : Context) (i : Invocation) : Option MethodDecl :=
  ctx.index.get? .targets i.methodName

/-- The method an invocation reaches, and the step that found it: the first that finds one. -/
def resolve (ctx : Context) (owner : Component) (kind : MethodKind) (i : Invocation) :
    Option (MethodDecl × Step) :=
  ((bySelf ctx owner kind i).map (·, .self)).or <|
  ((byField ctx owner i).map (·, .field)).or <|
  ((byInterface ctx i).map (·, .interface)).or <|
  ((byDeclaredType ctx i).map (·, .direct)).or <|
  (byName ctx i).map (·, .methodName)

end Resolution

end ArchGraph

import ArchGraph.Identifier.Parameter
import ArchGraph.Identifier.Path
import ArchGraph.Url

/-!
Identifiers of the elements of an architecture. They are what two analyses are compared by, so the
same element always gets the same identifier, wherever its code stands.
-/

namespace ArchGraph.Identifier

open Text

def component (qualifiedName : String) : String := "component:" ++ qualifiedName

/-- `method:shop.OrderService.place(String,int)`. -/
def method (qualifiedClass name : String) (types : List String) (signature : Option String) :
    String :=
  "method:" ++ qualifiedClass ++ "." ++ name ++ "(" ++
    String.ofList (parameterTypes types signature) ++ ")"

/-- The path of an endpoint as its identifier has it. -/
def endpointPath (path : String) : String := onChars abstractPath path

/-- The address of an outbound call as its identifier has it. -/
def callPath (url : String) : String :=
  onChars (fun cs => abstractPath (Url.identifyingPath variableMark cs)) url

def endpoint (verb : Option String) (path : String) : String :=
  "endpoint:" ++ upperCase ((given? verb).getD "ANY") ++ ":" ++ endpointPath path

def externalCall (verb url : Option String) (source : String) : String :=
  "external:" ++ upperCase ((given? verb).getD "UNKNOWN") ++ ":" ++ callPath (url.getD "") ++ ":" ++
    source

def topic (name : String) : String := "topic:" ++ name

def table (name : String) : String := "table:" ++ lowerCase name

def relationship (type source target : String) : String :=
  lowerCase type ++ ":" ++ source ++ "->" ++ target

/-- The part of a type name after its package; an empty name has none. -/
def simpleName? (typeName : String) : Option String :=
  if typeName = "" then none else some (onChars (afterLast '.') typeName)

end ArchGraph.Identifier

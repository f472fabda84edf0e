import ArchGraph.Text

/-!
Parameter types of a method, from a list of them or from a signature. Only the simple name of a type
counts: no package, no type arguments.
-/

namespace ArchGraph.Identifier

open Text

/-- The name of a type without package and type arguments. -/
def simpleType (cs : List Char) : List Char := afterLast '.' (before '<' (trim cs))

/-- The part before the last `c`, if there is a `c`. -/
def beforeLast? (c : Char) (cs : List Char) : Option (List Char) :=
  match cs.reverse.dropWhile (· != c) with
  | [] => none
  | _ :: rest => some rest.reverse

/-- What stands between the first opening and the last closing parenthesis. -/
def parameterText? (signature : List Char) : Option (List Char) :=
  match signature.dropWhile (· != '(') with
  | [] => none
  | _ :: rest => beforeLast? ')' rest

/-- How a character changes the depth inside angle brackets. -/
def depthChange (c : Char) : Int := if c == '<' then 1 else if c == '>' then -1 else 0

/-- Cut at the commas outside angle brackets. -/
def splitTop (depth : Int) : List Char → List (List Char)
  | [] => [[]]
  | c :: cs =>
    if c == ',' && depth == 0 then [] :: splitTop depth cs
    else extendHead c (splitTop (depth + depthChange c) cs)

/-- The declarations of a parameter text, trimmed, the empty ones left out. -/
def declarations (cs : List Char) : List (List Char) :=
  ((splitTop 0 cs).map trim).filter (fun d => !d.isEmpty)

/-- The type that a declaration such as `final List<Order> orders` starts with. -/
def declaredType? (declaration : List Char) : Option (List Char) :=
  (((words declaration).filter (· != "final".toList)).head?).map simpleType

/-- The simple parameter types of a signature, separated by commas. -/
def signatureTypes (signature : List Char) : List Char :=
  match parameterText? signature with
  | none => []
  | some text => joinWith [','] ((declarations (trim text)).filterMap declaredType?)

/-- The simple parameter types: the ones given if there are any, else those of the signature. -/
def parameterTypes (types : List String) (signature : Option String) : List Char :=
  if types.isEmpty then signatureTypes (signature.getD "").toList
  else joinWith [','] (types.map (fun t => simpleType t.toList))

end ArchGraph.Identifier

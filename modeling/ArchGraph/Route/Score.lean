import ArchGraph.Route.Pattern
import ArchGraph.Url

/-!
How well the path of a call agrees with the path of an endpoint, as a score: equal paths, then a
pattern that accepts, then one path ending in the other, then agreeing segments counted from the
end.
-/

namespace ArchGraph.Route

open Text

def exactScore : Nat := 10

def patternScore : Nat := 8

/-- The path of the call ends in the path of the endpoint. -/
def callSuffixScore : Nat := 7

/-- The path of the endpoint ends in the path of the call. -/
def endpointSuffixScore : Nat := 5

/-- The least score that is accepted unless another is asked for. -/
def defaultThreshold : Int := 3

def segments (path : List Char) : List (List Char) := fields (· == '/') path

def ofSegments (parts : List (List Char)) : List Char := '/' :: joinWith ['/'] parts

/-- The path itself, then without its first and without its first two segments: a gateway puts the
name of the service in front, which the endpoint does not declare. -/
def candidates (path : List Char) : List (List Char) :=
  let parts := segments path
  path :: ((if 2 ≤ parts.length then [ofSegments (parts.drop 1)] else []) ++
    (if 3 ≤ parts.length then [ofSegments (parts.drop 2)] else []))

def isPlaceholder (segment : List Char) : Bool :=
  segment.head? == some '\x7b' && segment.getLast? == some '\x7d'

/-- The number of agreeing segments at the front of both lists. -/
def agreeing : List (List Char) → List (List Char) → Nat
  | ours :: restOurs, theirs :: restTheirs =>
    if ours == theirs || isPlaceholder theirs then agreeing restOurs restTheirs + 1 else 0
  | _, _ => 0

/-- Fewer than two agreeing segments say nothing. -/
def trailingScore (candidate endpoint : List Char) : Nat :=
  let n := agreeing (segments candidate).reverse (segments endpoint).reverse
  if 2 ≤ n then n + 1 else 0

/-- The score of a call path against an endpoint path; zero is no match. -/
def score (candidate endpoint : List Char) : Nat :=
  if candidate == endpoint then exactScore
  else if (Pattern.parse endpoint).accepts candidate then patternScore
  else if endpoint.isSuffixOf candidate then callSuffixScore
  else if candidate.isSuffixOf endpoint then endpointSuffixScore
  else trailingScore candidate endpoint

/-- The verbs that tell calls and endpoints apart. -/
def knownVerbs : List String := ["GET", "POST", "PUT", "PATCH", "DELETE", "HEAD", "OPTIONS"]

def isKnownVerb (verb : Option String) : Bool := verb.any (fun v => upperCase v ∈ knownVerbs)

/-- An unknown verb on either side agrees with every verb. -/
def verbsAgree (call endpoint : Option String) : Bool :=
  !isKnownVerb call || !isKnownVerb endpoint || call.map upperCase == endpoint.map upperCase

/-- A handler's path under the path of its component. -/
def joinPaths (base path : Option String) : String :=
  let parts := [base, path].filterMap (fun p =>
    let cs := trimWhere (· == '/') (p.getD "").toList
    if cs.isEmpty then none else some cs)
  String.ofList (ofSegments parts)

end ArchGraph.Route

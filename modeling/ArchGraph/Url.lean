import ArchGraph.Text

/-!
Addresses of outbound calls: scheme, host, and the path that remains of an address when everything a
route cannot see is taken away.
-/

namespace ArchGraph.Url

open Text

/-- The token that stands for a part of an address unknown before the call is made. -/
def dynamicToken : List Char := "<dynamic>".toList

def isLetter (c : Char) : Bool := ('a' ≤ c && c ≤ 'z') || ('A' ≤ c && c ≤ 'Z')

def isSchemeChar (c : Char) : Bool :=
  isLetter c || ('0' ≤ c && c ≤ '9') || c == '+' || c == '.' || c == '-'

/-- What follows `scheme://`, if the address starts with a scheme. -/
def afterScheme? (cs : List Char) : Option (List Char) :=
  match cs with
  | [] => none
  | c :: rest =>
    if isLetter c then
      match rest.dropWhile isSchemeChar with
      | ':' :: '/' :: '/' :: after => some after
      | _ => none
    else none

def withoutQuery (cs : List Char) : List Char := before '#' (before '?' cs)

/-- Make one slash of every run of slashes. -/
def collapseSlashes : List Char → List Char
  | [] => []
  | c :: cs =>
    if c == '/' && cs.head? == some '/' then collapseSlashes cs else c :: collapseSlashes cs

def dropEndSlash (cs : List Char) : List Char :=
  if cs.getLast? == some '/' then cs.dropLast else cs

/-- Start with a slash, unless there is nothing to start. -/
def rooted (cs : List Char) : List Char :=
  if cs.isEmpty || cs.head? == some '/' then cs else '/' :: cs

/-- A path without query, fragment and dynamic parts, with single slashes and none at its end. -/
def tidyPath (cs : List Char) : List Char :=
  rooted (dropEndSlash (collapseSlashes (substitute (literally dynamicToken []) (withoutQuery cs))))

/-- The comparable path of an address: empty, or `/a/b`. An address with a host and no path after it
has none. -/
def path (address : List Char) : List Char :=
  let cs := trim address
  match afterScheme? cs with
  | none => tidyPath cs
  | some rest =>
    match rest.dropWhile (· != '/') with
    | [] => []
    | fromSlash => tidyPath fromSlash

/-- The path an identifier keeps of an address, before what varies is abstracted: dynamic parts are
marked, and a host without a path has the root path. -/
def identifyingPath (mark address : List Char) : List Char :=
  let cs :=
    match afterScheme? address with
    | none => address
    | some rest =>
      match rest.dropWhile (· != '/') with
      | [] => ['/']
      | fromSlash => fromSlash
  substitute (literally dynamicToken mark) (withoutQuery cs)

def loopbackHosts : List (List Char) :=
  ["localhost".toList, "127.0.0.1".toList, "0.0.0.0".toList]

/-- Four groups of one to three decimal digits; one line break may stand at the end. -/
def isNumericHost (host : List Char) : Bool :=
  let cs := if host.getLast? == some '\n' then host.dropLast else host
  let groups := splitWhere (· == '.') cs
  groups.length == 4 && groups.all (fun g => !g.isEmpty && g.length ≤ 3 && g.all isDecimal)

def isHostChar (c : Char) : Bool := !(c == ':' || c == '/' || c == '?' || c == '#')

/-- The host of an address with a scheme, in lower case. -/
def host? (address : List Char) : Option (List Char) :=
  match afterScheme? (trim address) with
  | none => none
  | some rest =>
    let host := rest.takeWhile isHostChar
    if host.isEmpty then none else some (lower host)

/-- The service an address names: the first label of its host, unless the host is this machine or
numeric. -/
def service? (address : List Char) : Option (List Char) :=
  match host? address with
  | none => none
  | some host =>
    if loopbackHosts.contains host || isNumericHost host then none
    else
      let label := before '.' host
      if label.isEmpty then none else some label

end ArchGraph.Url

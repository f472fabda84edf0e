import ArchGraph.Text

/-!
Paths inside identifiers. What varies from one request to the next is abstracted: a placeholder, a
numeric segment and a segment in the form of a UUID all become the same mark, so that renaming a
path variable or calling with another number leaves an identifier as it is.
-/

namespace ArchGraph.Identifier

open Text

/-- The mark that stands for what varies. -/
def variableMark : List Char := ['\x7b', '*', '\x7d']

/-- A placeholder is an opening brace, one or more characters that do not close it, and a closing
brace. -/
def placeholder {β : Type} (found : β) : Rule β
  | '\x7b' :: cs =>
    let name := cs.takeWhile (· != '\x7d')
    if name.isEmpty || name.length == cs.length then none else some (found, name.length + 2)
  | _ => none

/-- A segment ends at a slash or at the end; one line break may stand before the end. -/
def endsSegment (cs : List Char) : Bool :=
  cs.isEmpty || cs.head? == some '/' || cs == ['\n']

/-- A slash and a segment of decimal digits. -/
def numericSegment : Rule (List Char)
  | '/' :: cs =>
    let digits := cs.takeWhile isDecimal
    if !digits.isEmpty && endsSegment (cs.drop digits.length) then
      some ('/' :: variableMark, digits.length + 1)
    else none
  | _ => none

/-- Five groups of hexadecimal digits with hyphens between them. -/
def isUuid (cs : List Char) : Bool :=
  let groups := splitWhere (· == '-') cs
  groups.all (·.all isHex) && groups.map (·.length) == [8, 4, 4, 4, 12]

/-- A slash and a segment in the form of a UUID. -/
def uuidSegment : Rule (List Char)
  | '/' :: cs =>
    if isUuid (cs.take 36) && endsSegment (cs.drop 36) then some ('/' :: variableMark, 37) else none
  | _ => none

/-- Take one slash off the end, unless it is all there is. -/
def dropFinalSlash (cs : List Char) : List Char :=
  if 1 < cs.length && cs.getLast? == some '/' then cs.dropLast else cs

/-- The path with all that varies abstracted. -/
def abstractPath (cs : List Char) : List Char :=
  dropFinalSlash
    (substitute uuidSegment (substitute numericSegment (substitute (placeholder variableMark) cs)))

end ArchGraph.Identifier

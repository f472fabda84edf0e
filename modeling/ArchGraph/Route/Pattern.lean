import ArchGraph.Identifier.Path

/-!
Route patterns. A placeholder stands for one segment or part of one, and a wildcard at the end for
any further segments.
-/

namespace ArchGraph.Route

open Text

/-- A pattern is made of characters that stand for themselves and holes. -/
inductive Piece where
  | char (c : Char)
  | hole
  deriving DecidableEq, Repr

structure Pattern where
  pieces : List Piece
  openEnd : Bool
  deriving DecidableEq, Repr

/-- The text without `tail` at its end, if it ends so. -/
def withoutTail? (tail cs : List Char) : Option (List Char) :=
  if tail.isSuffixOf cs then some (cs.take (cs.length - tail.length)) else none

def piecesOf (cs : List Char) : List Piece := scan (Identifier.placeholder .hole) .char cs

/-- One trailing `/**`, or else one trailing `/*`, opens the end of the pattern. -/
def Pattern.parse (cs : List Char) : Pattern :=
  match withoutTail? ['/', '*', '*'] cs <|> withoutTail? ['/', '*'] cs with
  | some body => ⟨piecesOf body, true⟩
  | none => ⟨piecesOf cs, false⟩

/-- What an open end lets follow: nothing, or a slash and text on the same line. -/
def isTail : List Char → Bool
  | [] => true
  | c :: cs => c == '/' && !(cs.contains '\n')

/-- Whether the text is the pieces with every hole filled by one or more characters other than a
slash. -/
def fits (openEnd : Bool) : List Piece → List Char → Bool
  | [], cs => if openEnd then isTail cs else cs.isEmpty
  | _ :: _, [] => false
  | .char c :: pieces, d :: cs => c == d && fits openEnd pieces cs
  | .hole :: pieces, d :: cs =>
    d != '/' && (fits openEnd pieces cs || fits openEnd (.hole :: pieces) cs)

def Pattern.accepts (p : Pattern) (path : List Char) : Bool := fits p.openEnd p.pieces path

end ArchGraph.Route

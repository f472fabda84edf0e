import ArchGraph.Text.Blank
import ArchGraph.Text.Case
import ArchGraph.Text.Digit
import ArchGraph.Text.Scan

/-!
Operations on strings, each the operation on their characters.
-/

namespace ArchGraph.Text

def onChars (f : List Char → List Char) (s : String) : String := String.ofList (f s.toList)

def upperCase (s : String) : String := onChars upper s

def lowerCase (s : String) : String := onChars lower s

def trimmed (s : String) : String := onChars trim s

/-- The part before the first `c`, or all of it. -/
def before (c : Char) (cs : List Char) : List Char := cs.takeWhile (· != c)

/-- The part after the last `c`, or all of it. -/
def afterLast (c : Char) (cs : List Char) : List Char := (cs.reverse.takeWhile (· != c)).reverse

/-- Put `sep` between the pieces. -/
def joinWith (sep : List Char) (pieces : List (List Char)) : List Char := sep.intercalate pieces

/-- An absent text and an empty one count the same. -/
def given? (s : Option String) : Option String := s.filter (· ≠ "")

/-- Texts in code point order. -/
def sorted (names : List String) : List String := names.mergeSort (fun a b => decide (a ≤ b))

end ArchGraph.Text

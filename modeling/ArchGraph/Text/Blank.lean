/-!
Blank characters, trimming, and cutting text at blanks. Text is a list of characters here, so that
each operation is a recursion on it.
-/

namespace ArchGraph.Text

/-- White space: the layout controls and the spaces of every width. -/
def isWhiteSpace (c : Char) : Bool :=
  let n := c.toNat
  (9 ≤ n && n ≤ 13) || n == 0x20 || n == 0x85 || n == 0xA0 || n == 0x1680 ||
    (0x2000 ≤ n && n ≤ 0x200A) || n == 0x2028 || n == 0x2029 || n == 0x202F || n == 0x205F ||
    n == 0x3000

/-- White space and the four information separators. -/
def isBlank (c : Char) : Bool := isWhiteSpace c || (28 ≤ c.toNat && c.toNat ≤ 31)

/-- Take the characters that satisfy `p` off both ends. -/
def trimWhere (p : Char → Bool) (cs : List Char) : List Char :=
  ((cs.dropWhile p).reverse.dropWhile p).reverse

def trim (cs : List Char) : List Char := trimWhere isBlank cs

/-- Put `c` in front of the first piece. -/
def extendHead (c : Char) : List (List Char) → List (List Char)
  | [] => [[c]]
  | piece :: rest => (c :: piece) :: rest

/-- Cut at every character that satisfies `p`. The cuts are dropped, so there is one piece more
than there are cuts. -/
def splitWhere (p : Char → Bool) : List Char → List (List Char)
  | [] => [[]]
  | c :: cs => if p c then [] :: splitWhere p cs else extendHead c (splitWhere p cs)

/-- The non-empty pieces between cuts. -/
def fields (p : Char → Bool) (cs : List Char) : List (List Char) :=
  (splitWhere p cs).filter (fun piece => !piece.isEmpty)

def words (cs : List Char) : List (List Char) := fields isBlank cs

end ArchGraph.Text

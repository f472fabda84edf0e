import ArchGraph.Number.Binary64

/-!
JSON values. Whole numbers are unbounded, other numbers are binary, and an object is the list of its
entries in order of first arrival with each key once.
-/

namespace ArchGraph

inductive Json where
  | null
  | bool (b : Bool)
  | int (n : Int)
  | float (x : Binary64)
  | str (s : String)
  | arr (items : List Json)
  | obj (entries : List (String × Json))
  deriving Repr

namespace Json

instance : Inhabited Json := ⟨.null⟩

/-- A number of either form. -/
inductive Number where
  | whole (n : Int)
  | binary (x : Binary64)
  deriving DecidableEq, Repr

/-- Equality by value, exact between the two forms. -/
def Number.sameValue : Number → Number → Bool
  | .whole m, .whole n => m == n
  | .whole m, .binary y => y.toInt? == some m
  | .binary x, .whole n => x.toInt? == some n
  | .binary x, .binary y => x.sameValue y

/-- The number a value counts as: truth values count as one and zero. -/
def number? : Json → Option Number
  | .bool b => some (.whole (if b then 1 else 0))
  | .int n => some (.whole n)
  | .float x => some (.binary x)
  | _ => none

mutual

/-- Equality by value: numbers and truth values by what they count as, lists item by item, objects
key by key in any order. -/
def sameValue : Json → Json → Bool
  | .null, .null => true
  | .str a, .str b => a == b
  | .arr xs, .arr ys => sameItems xs ys
  | .obj xs, .obj ys => xs.length == ys.length && sameEntries xs ys
  | .bool a, y => sameNumber (.whole (if a then 1 else 0)) y
  | .int m, y => sameNumber (.whole m) y
  | .float x, y => sameNumber (.binary x) y
  | _, _ => false
where
  sameNumber (m : Number) (y : Json) : Bool := y.number?.any (m.sameValue ·)

def sameItems : List Json → List Json → Bool
  | [], [] => true
  | x :: xs, y :: ys => sameValue x y && sameItems xs ys
  | _, _ => false

def sameEntries : List (String × Json) → List (String × Json) → Bool
  | [], _ => true
  | (k, x) :: xs, ys =>
    (match ys.lookup k with
      | some y => sameValue x y
      | none => false) && sameEntries xs ys

end

/-- Values that count as present: all but null, false, zero and whatever is empty. -/
def isTruthy : Json → Bool
  | .null => false
  | .bool b => b
  | .int n => n != 0
  | .float x => !x.isZero
  | .str s => s != ""
  | .arr items => !items.isEmpty
  | .obj entries => !entries.isEmpty

def ofOption {α : Type} (f : α → Json) : Option α → Json
  | none => .null
  | some a => f a

def ofText? (s : Option String) : Json := ofOption .str s

def ofInt? (n : Option Int) : Json := ofOption .int n

def ofTexts (names : List String) : Json := .arr (names.map .str)

def ofNat (n : Nat) : Json := .int n

/-- The value under `key` if this is an object that has it. -/
def get? (j : Json) (key : String) : Option Json :=
  match j with
  | .obj entries => entries.lookup key
  | _ => none

end Json

end ArchGraph

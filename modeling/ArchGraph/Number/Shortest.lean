import ArchGraph.Number.Binary64

/-!
Decimal text of a binary number: the fewest digits that read back as the same number, and of those
the nearest. Exponents from -4 up to 15 are written positionally.
-/

namespace ArchGraph.Binary64

/-- `base ^ exponent` as a fraction. -/
def power (base : Nat) (exponent : Int) : Nat × Nat :=
  if 0 ≤ exponent then (base.pow exponent.toNat, 1) else (1, base.pow (-exponent).toNat)

def fractionLe (a b : Nat × Nat) : Bool := a.1 * b.2 ≤ b.1 * a.2

def fractionLt (a b : Nat × Nat) : Bool := a.1 * b.2 < b.1 * a.2

def times (n : Nat) (a : Nat × Nat) : Nat × Nat := (n * a.1, a.2)

/-- The reals that round to a positive number: both ends, and whether the ends belong. -/
structure Interval where
  low : Nat × Nat
  high : Nat × Nat
  closed : Bool

def Interval.holds (i : Interval) (a : Nat × Nat) : Bool :=
  if i.closed then fractionLe i.low a && fractionLe a i.high
  else fractionLt i.low a && fractionLt a i.high

/-- Below the least mantissa of an exponent the numbers stand twice as close. -/
def roundingInterval (mantissa : Nat) (exponent : Int) : Interval :=
  let quarter := power 2 (exponent - 2)
  let gap := if mantissa = Nat.pow 2 52 ∧ minExponent < exponent then 1 else 2
  ⟨times (4 * mantissa - gap) quarter, times (4 * mantissa + 2) quarter, mantissa % 2 == 0⟩

/-- The largest of three estimates whose power of ten does not exceed the value. -/
def decimalExponent (mantissa : Nat) (exponent : Int) : Int :=
  let value := times mantissa (power 2 exponent)
  let guess := ((mantissa.log2 : Int) + exponent) * 30103 / 100000
  if fractionLe (power 10 (guess + 1)) value then guess + 1
  else if fractionLe (power 10 guess) value then guess
  else guess - 1

/-- A point of the grid of multiples of `10 ^ grid` that reads back, the nearer of two, and of two
equally near the even one. -/
def gridPoint? (mantissa : Nat) (exponent grid : Int) : Option Nat :=
  let value := times mantissa (power 2 exponent)
  let step := power 10 grid
  let interval := roundingInterval mantissa exponent
  let below := (value.1 * step.2) / (value.2 * step.1)
  let fits (n : Nat) := interval.holds (times n step)
  match fits below, fits (below + 1) with
  | true, true =>
    let middle := times (2 * below + 1) step
    let doubled := times 2 value
    if fractionLt doubled middle then some below
    else if fractionLt middle doubled then some (below + 1)
    else some (below + below % 2)
  | true, false => some below
  | false, true => some (below + 1)
  | false, false => none

/-- Seventeen digits always suffice. -/
def shortestFrom (mantissa : Nat) (exponent top : Int) : Nat → Nat × Int
  | 0 => (0, 0)
  | left + 1 =>
    let grid := top - (16 - left : Nat)
    match gridPoint? mantissa exponent grid with
    | some digits => (digits, grid)
    | none => shortestFrom mantissa exponent top left

/-- Digits and power of ten of the shortest decimal of a positive number. -/
def shortest (mantissa : Nat) (exponent : Int) : Nat × Int :=
  shortestFrom mantissa exponent (decimalExponent mantissa exponent) 17

def zerosText (n : Nat) : List Char := List.replicate n '0'

def dropLastZeros (cs : List Char) : List Char := (cs.reverse.dropWhile (· == '0')).reverse

/-- An exponent of ten, with a sign and two digits at least. -/
def exponentText (n : Int) : List Char :=
  let size := Nat.toDigits 10 n.natAbs
  'e' :: (if n < 0 then '-' else '+') :: (zerosText (2 - size.length) ++ size)

/-- Digits `ds` with the point after the first `point` of them. -/
def layOut (ds : List Char) (point : Int) : List Char :=
  let lead := point - 1
  if -4 ≤ lead ∧ lead < 16 then
    if point ≤ 0 then '0' :: '.' :: zerosText (-point).toNat ++ ds
    else if ds.length ≤ point.toNat then ds ++ zerosText (point.toNat - ds.length) ++ ['.', '0']
    else ds.take point.toNat ++ '.' :: ds.drop point.toNat
  else
    let rest := ds.drop 1
    ds.take 1 ++ (if rest.isEmpty then [] else '.' :: rest) ++ exponentText lead

def unsignedText (mantissa : Nat) (exponent : Int) : List Char :=
  if mantissa = 0 then ['0', '.', '0']
  else
    let decimal := shortest mantissa exponent
    let digits := Nat.toDigits 10 decimal.1
    layOut (dropLastZeros digits) (digits.length + decimal.2)

/-- The names of the numbers that are not finite, as a format spells them. -/
structure Spelling where
  infinity : String
  nan : String

def render (spelling : Spelling) : Binary64 → String
  | .finite negative mantissa exponent =>
    String.ofList ((if negative then ['-'] else []) ++ unsignedText mantissa exponent)
  | .infinite negative => (if negative then "-" else "") ++ spelling.infinity
  | .nan => spelling.nan

end ArchGraph.Binary64

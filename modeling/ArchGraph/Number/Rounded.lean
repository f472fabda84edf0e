import ArchGraph.Number.Shortest

/-!
Decimal text of a binary number with a chosen number of digits: after the point, or in all. The
value is rounded once and exactly, a tie to the even digit.
-/

namespace ArchGraph.Binary64

/-- The whole number nearest to `mantissa * 2 ^ exponent * 10 ^ shift`. -/
def nearest (mantissa : Nat) (exponent shift : Int) : Nat :=
  let value := times mantissa (power 2 exponent)
  let factor := power 10 shift
  roundDiv (value.1 * factor.1) (value.2 * factor.2)

/-- A point stands before a fraction, and before none only if it is kept. -/
def withPoint (keep : Bool) (whole fraction : List Char) : List Char :=
  if fraction.isEmpty && !keep then whole else whole ++ '.' :: fraction

/-- A number with `places` digits after the point. -/
def fixedText (keep : Bool) (places mantissa : Nat) (exponent : Int) : List Char :=
  let ds := Nat.toDigits 10 (nearest mantissa exponent places)
  let ds := zerosText (places + 1 - ds.length) ++ ds
  withPoint keep (ds.take (ds.length - places)) (ds.drop (ds.length - places))

/-- The first `count` digits of a number and the power of ten of the first of them. Rounding up may
give one digit more. -/
def leading (count mantissa : Nat) (exponent : Int) : List Char × Int :=
  if mantissa = 0 then (zerosText count, 0)
  else
    let top := decimalExponent mantissa exponent
    let ds := Nat.toDigits 10 (nearest mantissa exponent (count - 1 - top))
    if count < ds.length then (ds.take count, top + 1) else (ds, top)

/-- A number as one digit, `places` digits after the point, and an exponent. -/
def scientificText (keep : Bool) (places mantissa : Nat) (exponent : Int) : List Char :=
  let (ds, top) := leading (places + 1) mantissa exponent
  withPoint keep (ds.take 1) (ds.drop 1) ++ exponentText top

/-- A number with `count` digits, positional if they reach the point and few zeros stand before
them. Zeros at the end of a fraction are written only if they are kept. -/
def generalText (keep : Bool) (count mantissa : Nat) (exponent : Int) : List Char :=
  let (ds, top) := leading count mantissa exponent
  let fraction (cs : List Char) := if keep then cs else dropLastZeros cs
  if -4 ≤ top ∧ top < count then
    if top < 0 then withPoint keep ['0'] (fraction (zerosText (-top - 1).toNat ++ ds))
    else withPoint keep (ds.take (top.toNat + 1)) (fraction (ds.drop (top.toNat + 1)))
  else withPoint keep (ds.take 1) (fraction (ds.drop 1)) ++ exponentText top

end ArchGraph.Binary64

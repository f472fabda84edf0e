/-!
Numbers of the 64 bit binary format, held exactly: a finite number is a whole mantissa times a
power of two. Reading a decimal rounds to the nearest number, a tie to the even mantissa.
-/

namespace ArchGraph

/-- A finite number is `mantissa * 2 ^ exponent` with a sign, its mantissa below `2 ^ 53`. -/
inductive Binary64 where
  | finite (negative : Bool) (mantissa : Nat) (exponent : Int)
  | infinite (negative : Bool)
  | nan
  deriving DecidableEq, Repr

namespace Binary64

def minExponent : Int := -1074

def maxExponent : Int := 971

/-- The quotient of two whole numbers rounded to the nearest, a tie to the even one. -/
def roundDiv (num den : Nat) : Nat :=
  let quotient := num / den
  let remainder := num % den
  if 2 * remainder < den then quotient
  else if den < 2 * remainder then quotient + 1
  else quotient + quotient % 2

/-- `num / den` divided by `base ^ exponent`, as a fraction. -/
def scaled (base num den : Nat) (exponent : Int) : Nat × Nat :=
  if 0 ≤ exponent then (num, den * base.pow exponent.toNat) else
    (num * base.pow (-exponent).toNat, den)

/-- The number nearest to `num / den`. -/
def ofRatio (negative : Bool) (num den : Nat) : Binary64 :=
  if num = 0 then .finite negative 0 minExponent
  else
    let guess : Int := (num.log2 : Int) - den.log2 - 52
    let atGuess := scaled 2 num den guess
    let fitting := if atGuess.1 < Nat.pow 2 52 * atGuess.2 then guess - 1 else guess
    let exponent := max fitting minExponent
    let fraction := scaled 2 num den exponent
    let mantissa := roundDiv fraction.1 fraction.2
    let carried := mantissa == Nat.pow 2 53
    let exponent := if carried then exponent + 1 else exponent
    let mantissa := if carried then Nat.pow 2 52 else mantissa
    if maxExponent < exponent then .infinite negative else .finite negative mantissa exponent

def digitCount (n : Nat) : Nat := (Nat.toDigits 10 n).length

/-- The number nearest to `digits * 10 ^ exponent`. Far outside the range the power is not
formed. -/
def ofDecimal (negative : Bool) (digits : Nat) (exponent : Int) : Binary64 :=
  if digits = 0 ∨ exponent + digitCount digits < -400 then .finite negative 0 minExponent
  else if 400 < exponent then .infinite negative
  else
    let fraction := scaled 10 digits 1 (-exponent)
    ofRatio negative fraction.1 fraction.2

def ofInt (n : Int) : Binary64 := ofRatio (n < 0) n.natAbs 1

/-- The value, if it is a whole number. -/
def toInt? : Binary64 → Option Int
  | .finite negative mantissa exponent =>
    let fraction := scaled 2 mantissa 1 (-exponent)
    if fraction.1 % fraction.2 = 0 then
      let size : Int := (fraction.1 / fraction.2 : Nat)
      some (if negative then -size else size)
    else none
  | _ => none

def isZero : Binary64 → Bool
  | .finite _ mantissa _ => mantissa == 0
  | _ => false

/-- Equality of values: both zeros are equal, and no number equals `nan`. -/
def sameValue (x y : Binary64) : Bool :=
  match x, y with
  | .nan, _ => false
  | _, .nan => false
  | _, _ => decide (x = y) || (x.isZero && y.isZero)

end Binary64

end ArchGraph

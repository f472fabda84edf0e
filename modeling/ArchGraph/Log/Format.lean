import ArchGraph.Log.Place
import ArchGraph.Number.Rounded

/-!
Messages with their places filled. The letter of a place says how: `s` takes an argument as text,
`r` quoted, `a` quoted in ASCII, `c` as one character, `d` as a whole number, `x` and `o` in another
base, `f` with a number of places, `e` with an exponent, `g` with a number of digits. Two percent
signs are one.
-/

namespace ArchGraph.Log

/-- A value in quotes, with the characters outside ASCII spelled out. -/
def asciiText (j : Json) : List Char :=
  j.inner.toList.flatMap (fun c => if c.toNat < 128 then [c] else Json.numbered c)

/-- The one character that a value is, or is the number of. -/
def character (j : Json) : Except FormatFault Char :=
  match j with
  | .str s =>
    match s.toList with
    | [c] => .ok c
    | _ => .error .notCharacter
  | _ =>
    match Place.whole? j with
    | none => .error .notCharacter
    | some n => if 0 ≤ n ∧ n < 0x110000 then .ok (Char.ofNat n.toNat) else .error .noCharacter

/-- The whole part of a number. -/
def truncated (letter : Char) : Json → Except FormatFault Int
  | .bool b => .ok (if b then 1 else 0)
  | .int n => .ok n
  | .float (.finite negative mantissa exponent) =>
    let fraction := Binary64.scaled 2 mantissa 1 (-exponent)
    let size : Int := (fraction.1 / fraction.2 : Nat)
    .ok (if negative then -size else size)
  | .float (.infinite _) => .error (.notFinite true)
  | .float .nan => .error (.notFinite false)
  | j => .error (.notNumber letter j.kindWord)

def integer (letter : Char) (j : Json) : Except FormatFault Int :=
  match Place.whole? j with
  | some n => .ok n
  | none => .error (.notInteger letter j.kindWord)

/-- The number a value counts as. -/
def real : Json → Except FormatFault Binary64
  | .bool b => .ok (.ofInt (if b then 1 else 0))
  | .int n =>
    match Binary64.ofInt n with
    | .infinite _ => .error .tooLarge
    | x => .ok x
  | .float x => .ok x
  | j => .error (.notReal j.kindWord)

/-- A number as `digits` writes the size of a finite one. -/
def padReal (p : Place) (digits : Nat → Int → List Char) : Binary64 → List Char
  | .finite negative mantissa exponent => p.padNumber negative [] (digits mantissa exponent)
  | .infinite negative => p.padNumber negative [] "inf".toList
  | .nan => p.padNumber false [] "nan".toList

def capitals (cs : List Char) : List Char := cs.map Char.toUpper

/-- Fill a place by its letter, which stands at `index` in the message. -/
def fill (p : Place) (letter : Char) (index : Nat) (j : Json) : Except FormatFault (List Char) :=
  let places := p.precision.getD 6
  let fixed := padReal p (Binary64.fixedText p.alternate places)
  let scientific := padReal p (Binary64.scientificText p.alternate places)
  let general := padReal p (Binary64.generalText p.alternate (max places 1))
  match letter with
  | 's' => .ok (p.padText j.display.toList)
  | 'r' => .ok (p.padText j.inner.toList)
  | 'a' => .ok (p.padText (asciiText j))
  | 'c' => do return p.pad [← character j]
  | 'd' | 'i' | 'u' => do return p.padWhole 10 [] (← truncated letter j)
  | 'o' => do return p.padWhole 8 ['0', 'o'] (← integer letter j)
  | 'x' => do return p.padWhole 16 ['0', 'x'] (← integer letter j)
  | 'X' => do return capitals (p.padWhole 16 ['0', 'x'] (← integer letter j))
  | 'f' => do return fixed (← real j)
  | 'F' => do return capitals (fixed (← real j))
  | 'e' => do return scientific (← real j)
  | 'E' => do return capitals (scientific (← real j))
  | 'g' => do return general (← real j)
  | 'G' => do return capitals (general (← real j))
  | _ => .error (.unknownLetter letter index)

/-- Fill the places of a message of which the last part remains. `fuel` bounds its length. -/
def fillFrom (length : Nat) : Nat → Arguments → List Char → Except FormatFault (List Char)
  | 0, _, rest => .ok rest
  | _ + 1, args, [] => if args.isSpent then .ok [] else .error .tooManyArguments
  | fuel + 1, args, '%' :: '%' :: rest => do
    return '%' :: (← fillFrom length fuel args rest)
  | fuel + 1, args, '%' :: rest => do
    match ← Place.read args rest with
    | (_, _, []) => throw .incomplete
    | (place, args, letter :: rest) =>
      let (j, args) ← args.take
      let text ← fill place letter (length - rest.length - 1) j
      return text ++ (← fillFrom length fuel args rest)
  | fuel + 1, args, c :: rest => do
    return c :: (← fillFrom length fuel args rest)

/-- A message with its places filled. Without arguments it is left as it is. -/
def format (message : String) (args : List Json) : Except FormatFault String :=
  let cs := message.toList
  if args.isEmpty then .ok message
  else (fillFrom cs.length (cs.length + 1) (.ofList args) cs).map String.ofList

end ArchGraph.Log
